import Mathlib.Data.List.Nodup

/-!
# Two-level maps

A `BucketMap` files records under a key, and inside one bucket at most one record per tag. A bucket that has been emptied
and one that was never opened stay different.
-/

/-- Records filed by `key`, no two records of one bucket carrying the same `tag`. -/
structure BucketMap (α : Type*) {κ σ : Type*} (key : α → κ) (tag : α → σ) where
  find : κ → Option (List α)
  keyed : ∀ k l, find k = some l → ∀ a ∈ l, key a = k
  nodup : ∀ k l, find k = some l → (l.map tag).Nodup

namespace BucketMap

open List

variable {α κ σ : Type*} {key : α → κ} {tag : α → σ}

def bucket (m : BucketMap α key tag) (k : κ) : List α :=
  (m.find k).getD []

variable {a : α} {k : κ} {m : BucketMap α key tag} {P : α → Prop}

lemma key_of_mem_bucket (h : a ∈ m.bucket k) : key a = k := by
  unfold bucket at h
  cases hf : m.find k with
  | none => simp [hf] at h
  | some l => exact m.keyed k l hf a (by simpa [hf] using h)

lemma nodup_bucket (m : BucketMap α key tag) : ((m.bucket k).map tag).Nodup := by
  unfold bucket
  cases hf : m.find k with
  | none => simp
  | some l => simpa using m.nodup k l hf

def empty : BucketMap α key tag where
  find := fun _ => none
  keyed := by simp
  nodup := by simp

@[simp]
lemma bucket_empty (k : κ) : (empty : BucketMap α key tag).bucket k = [] := rfl

def contains [DecidableEq σ] (m : BucketMap α key tag) (k : κ) (t : σ) : Bool :=
  (m.bucket k).any fun a => decide (tag a = t)

lemma contains_iff [DecidableEq σ] {t : σ} : m.contains k t = true ↔ ∃ a ∈ m.bucket k, tag a = t := by
  simp [contains]

def add [DecidableEq κ] [DecidableEq σ] (m : BucketMap α key tag) (a : α) : BucketMap α key tag :=
  if h : m.contains (key a) (tag a) = true then m
  else
    { find := fun k => if k = key a then some (a :: m.bucket (key a)) else m.find k
      keyed := by
        intro k l hl b hb
        by_cases hk : k = key a
        · subst hk
          simp only [if_true, Option.some.injEq] at hl
          subst hl
          rcases mem_cons.mp hb with rfl | hb
          · rfl
          · exact key_of_mem_bucket hb
        · rw [if_neg hk] at hl
          exact m.keyed k l hl b hb
      nodup := by
        intro k l hl
        by_cases hk : k = key a
        · subst hk
          simp only [if_true, Option.some.injEq] at hl
          subst hl
          rw [map_cons, nodup_cons]
          refine ⟨fun hm => h ?_, nodup_bucket m⟩
          obtain ⟨b, hb, ht⟩ := mem_map.mp hm
          exact contains_iff.mpr ⟨b, hb, ht⟩
        · rw [if_neg hk] at hl
          exact m.nodup k l hl }

section

variable [DecidableEq κ] [DecidableEq σ]

lemma bucket_add_of_contains (h : m.contains (key a) (tag a) = true) : m.add a = m := by
  simp [add, h]

lemma bucket_add (h : m.contains (key a) (tag a) = false) (k : κ) :
    (m.add a).bucket k = if k = key a then a :: m.bucket k else m.bucket k := by
  unfold add
  rw [dif_neg (by simp [h])]
  by_cases hk : k = key a
  · subst hk; simp [bucket]
  · simp [bucket, hk]

lemma mem_bucket_add {b : α} (hb : b ∈ (m.add a).bucket k) : b = a ∨ b ∈ m.bucket k := by
  cases h : m.contains (key a) (tag a) with
  | true => rw [bucket_add_of_contains h] at hb; exact .inr hb
  | false =>
    rw [bucket_add h] at hb
    split at hb
    · exact mem_cons.mp hb
    · exact .inr hb

end

def erase [DecidableEq κ] (m : BucketMap α key tag) (k : κ) : BucketMap α key tag where
  find := fun k' => if k' = k then none else m.find k'
  keyed := by
    intro k' l hl
    split at hl
    · cases hl
    · exact m.keyed k' l hl
  nodup := by
    intro k' l hl
    split at hl
    · cases hl
    · exact m.nodup k' l hl

section

variable (m : BucketMap α key tag)

def restrict (q : κ → Bool) : BucketMap α key tag where
  find := fun k => if q k then m.find k else none
  keyed := by
    intro k l hl
    split at hl
    · exact m.keyed k l hl
    · cases hl
  nodup := by
    intro k l hl
    split at hl
    · exact m.nodup k l hl
    · cases hl

/-- Keep the records that pass `p`; a bucket stays even if nothing is left in it. -/
def filter (p : α → Bool) : BucketMap α key tag where
  find := fun k => (m.find k).map (List.filter p)
  keyed := by
    intro k l hl a ha
    obtain ⟨l', hl', rfl⟩ := Option.map_eq_some_iff.mp hl
    exact m.keyed k l' hl' a (List.mem_filter.mp ha).1
  nodup := by
    intro k l hl
    obtain ⟨l', hl', rfl⟩ := Option.map_eq_some_iff.mp hl
    exact (m.nodup k l' hl').sublist (filter_sublist.map tag)

/-- Keep the records that pass `p` and drop the buckets in which nothing is left. -/
def prune (p : α → Bool) : BucketMap α key tag where
  find := fun k => ((m.find k).map (List.filter p)).filter fun l => !l.isEmpty
  keyed := by
    intro k l hl
    exact (m.filter p).keyed k l (Option.eq_some_of_filter_eq_some hl)
  nodup := by
    intro k l hl
    exact (m.filter p).nodup k l (Option.eq_some_of_filter_eq_some hl)

end

/-- Rewrite the bucket of `k` by `f`, which keeps the keys and the tags of the records in it. -/
def rewrite [DecidableEq κ] (m : BucketMap α key tag) (k : κ) (f : List α → List α)
    (hf : ∀ l, (f l).map (fun a => (key a, tag a)) = l.map (fun a => (key a, tag a))) :
    BucketMap α key tag where
  find := fun k' => if k' = k then (m.find k').map f else m.find k'
  keyed := by
    intro k' l hl a ha
    split at hl
    · obtain ⟨l', hl', rfl⟩ := Option.map_eq_some_iff.mp hl
      have hmem : (key a, tag a) ∈ (f l').map (fun a => (key a, tag a)) := mem_map.mpr ⟨a, ha, rfl⟩
      rw [hf] at hmem
      obtain ⟨b, hb, hab⟩ := mem_map.mp hmem
      exact (Prod.ext_iff.mp hab).1.symm.trans (m.keyed k' l' hl' b hb)
    · exact m.keyed k' l hl a ha
  nodup := by
    intro k' l hl
    split at hl
    · obtain ⟨l', hl', rfl⟩ := Option.map_eq_some_iff.mp hl
      have htags : (f l').map tag = l'.map tag := by
        have := congrArg (map Prod.snd) (hf l')
        simpa [map_map, Function.comp_def] using this
      rw [htags]
      exact m.nodup k' l' hl'
    · exact m.nodup k' l hl

section

variable (m : BucketMap α key tag)

@[simp]
lemma bucket_erase [DecidableEq κ] (k k' : κ) : (m.erase k).bucket k' = if k' = k then [] else m.bucket k' := by
  by_cases h : k' = k <;> simp [bucket, erase, h]

@[simp]
lemma bucket_restrict (q : κ → Bool) (k : κ) : (m.restrict q).bucket k = if q k then m.bucket k else [] := by
  by_cases h : q k = true <;> simp [bucket, restrict, h]

@[simp]
lemma bucket_filter (p : α → Bool) (k : κ) : (m.filter p).bucket k = (m.bucket k).filter p := by
  cases h : m.find k <;> simp [bucket, filter, h]

@[simp]
lemma bucket_prune (p : α → Bool) (k : κ) : (m.prune p).bucket k = (m.bucket k).filter p := by
  cases h : m.find k with
  | none => simp [bucket, prune, h]
  | some l =>
    by_cases he : l.filter p = []
    · simp [bucket, prune, h, Option.filter, he]
    · simp [bucket, prune, h, Option.filter, he]

@[simp]
lemma bucket_rewrite [DecidableEq κ] (k k' : κ) (f : List α → List α)
    (hf : ∀ l, (f l).map (fun a => (key a, tag a)) = l.map (fun a => (key a, tag a))) :
    (m.rewrite k f hf).bucket k' = if k' = k then f (m.bucket k') else m.bucket k' := by
  have hnil : f [] = [] := map_eq_nil_iff.mp (hf [])
  by_cases h : k' = k
  · cases hm : m.find k' <;> simp [bucket, rewrite, h, hnil, h ▸ hm]
  · simp [bucket, rewrite, h]

end

def Sub (m m' : BucketMap α key tag) : Prop :=
  ∀ k, (m.bucket k).Sublist (m'.bucket k)

lemma Sub.refl (m : BucketMap α key tag) : m.Sub m :=
  fun _ => Sublist.refl _

lemma Sub.trans {m₁ m₂ m₃ : BucketMap α key tag} (h : m₁.Sub m₂) (h' : m₂.Sub m₃) : m₁.Sub m₃ :=
  fun k => (h k).trans (h' k)

lemma sub_erase [DecidableEq κ] : (m.erase k).Sub m := by
  intro k'
  rw [bucket_erase]
  split
  · exact nil_sublist _
  · exact Sublist.refl _

lemma sub_restrict {q : κ → Bool} : (m.restrict q).Sub m := by
  intro k
  rw [bucket_restrict]
  split
  · exact Sublist.refl _
  · exact nil_sublist _

lemma sub_filter {p : α → Bool} : (m.filter p).Sub m := by
  intro k
  rw [bucket_filter]
  exact filter_sublist

lemma sub_prune {p : α → Bool} : (m.prune p).Sub m := by
  intro k
  rw [bucket_prune]
  exact filter_sublist

def All (P : α → Prop) (m : BucketMap α key tag) : Prop :=
  ∀ k, ∀ a ∈ m.bucket k, P a

lemma All.of_sub {m' : BucketMap α key tag} (h : m'.All P) (hsub : m.Sub m') : m.All P :=
  fun k a ha => h k a ((hsub k).subset ha)

lemma All.mono {Q : α → Prop} (h : m.All P) (hPQ : ∀ a, P a → Q a) : m.All Q :=
  fun k a ha => hPQ a (h k a ha)

lemma All.add [DecidableEq κ] [DecidableEq σ] (h : m.All P) (ha : P a) : (m.add a).All P := by
  intro k b hb
  rcases mem_bucket_add hb with rfl | hold
  · exact ha
  · exact h k b hold

end BucketMap
