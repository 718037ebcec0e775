import Mathlib.Data.Fintype.Card
import Mathlib.Data.List.Chain

/-!
# Runs under conditions, and quorums

`Machine.run` plays a list of inputs on a deterministic machine. `Machine.Along` says of such a run that every step meets
a condition.
-/

namespace Machine

open List

variable {σ ε : Type*} {step : σ → ε → σ}

def run (step : σ → ε → σ) (s : σ) (es : List ε) : σ :=
  es.foldl step s

def Along (step : σ → ε → σ) (cond : σ → ε → Prop) : σ → List ε → Prop
  | _, [] => True
  | s, e :: es => cond s e ∧ Along step cond (step s e) es

instance decidableAlong (step : σ → ε → σ) (cond : σ → ε → Prop) [∀ s e, Decidable (cond s e)] :
    ∀ s es, Decidable (Along step cond s es)
  | _, [] => isTrue trivial
  | s, e :: es =>
    have := decidableAlong step cond (step s e) es
    inferInstanceAs (Decidable (cond s e ∧ Along step cond (step s e) es))

lemma run_append {s : σ} {es fs : List ε} : run step s (es ++ fs) = run step (run step s es) fs :=
  foldl_append

variable {cond : σ → ε → Prop} {es : List ε} {s : σ}

lemma along_append {fs : List ε} :
    Along step cond s (es ++ fs) ↔ Along step cond s es ∧ Along step cond (run step s es) fs := by
  induction es generalizing s with
  | nil => simp [Along, run]
  | cons e es ih =>
    change cond s e ∧ Along step cond (step s e) (es ++ fs) ↔ _
    rw [ih]
    exact and_assoc.symm

lemma invariant_run (Inv : σ → Prop) (hstep : ∀ s e, cond s e → Inv s → Inv (step s e))
    (h0 : Inv s) (ha : Along step cond s es) : Inv (run step s es) := by
  induction es generalizing s with
  | nil => exact h0
  | cons e es ih => exact ih (hstep s e ha.1 h0) ha.2

lemma run_induction (Inv : σ → Prop) (hstep : ∀ s e, Inv s → Inv (step s e)) (h0 : Inv s)
    (es : List ε) : Inv (run step s es) :=
  foldlRecOn es step h0 fun s hs e _ => hstep s e hs

lemma Along.of_invariant {prop : σ → ε → Prop} (Inv : σ → Prop) (hstep : ∀ s e, cond s e → Inv s → Inv (step s e))
    (hprop : ∀ s e, cond s e → Inv s → prop s e) (h0 : Inv s) (ha : Along step cond s es) : Along step prop s es := by
  induction es generalizing s with
  | nil => trivial
  | cons e es ih => exact ⟨hprop s e ha.1 h0, ih (hstep s e ha.1 h0) ha.2⟩

/-- An invariant of all small steps of which a step is made is kept by the step. -/
theorem invariant_of_small {small : σ → σ → Prop} (Inv : σ → Prop) {t : σ}
    (hsmall : ∀ a b, small a b → Inv a → Inv b) (hst : Relation.ReflTransGen small s t) (h : Inv s) : Inv t := by
  induction hst with
  | refl => exact h
  | tail _ hbc ih => exact hsmall _ _ hbc ih

def Reaches (step : σ → ε → σ) (cond : σ → ε → Prop) (s t : σ) : Prop :=
  ∃ es, Along step cond s es ∧ run step s es = t

namespace Reaches

variable {cond : σ → ε → Prop} {s t u : σ}

lemma refl (s : σ) : Reaches step cond s s :=
  ⟨[], trivial, rfl⟩

lemma single {e : ε} (h : cond s e) : Reaches step cond s (step s e) :=
  ⟨[e], ⟨h, trivial⟩, rfl⟩

lemma trans (h : Reaches step cond s t) (h' : Reaches step cond t u) : Reaches step cond s u := by
  obtain ⟨es, ha, rfl⟩ := h
  obtain ⟨fs, ha', rfl⟩ := h'
  exact ⟨es ++ fs, along_append.mpr ⟨ha, ha'⟩, run_append⟩

end Reaches

/-- An entry that is not among the new ones of a log has before it what it had in the old log. -/
lemma suffix_of_not_mem {α : Type*} {x : α} {l new old : List α} (h : x :: l <:+ new ++ old)
    (hx : x ∉ new) : x :: l <:+ old := by
  induction new with
  | nil => exact h
  | cons y new ih =>
    rw [mem_cons, not_or] at hx
    rw [cons_append, suffix_cons_iff] at h
    rcases h with heq | hrest
    · exact absurd (cons.inj heq).1 hx.1
    · exact ih hrest hx.2

/-- Two chains of a relation by which an entry determines the one before it are the same below a common entry. -/
lemma take_eq_of_isChain {α : Type*} {R : α → α → Prop} (hR : Relator.LeftUnique R) {l l' : List α} (hl : l.IsChain R)
    (hl' : l'.IsChain R) {i : ℕ} {x : α} (h : l[i]? = some x) (h' : l'[i]? = some x) : l.take i = l'.take i := by
  induction i generalizing x with
  | zero => rfl
  | succ i ih =>
    obtain ⟨hi, rfl⟩ := List.getElem?_eq_some_iff.mp h
    obtain ⟨hi', heq⟩ := List.getElem?_eq_some_iff.mp h'
    have hlink := isChain_iff_getElem.mp hl' i hi'
    rw [heq] at hlink
    have hbelow := getElem?_eq_getElem (Nat.lt_of_succ_lt hi)
    have hbelow' := getElem?_eq_getElem (Nat.lt_of_succ_lt hi')
    rw [hR hlink (isChain_iff_getElem.mp hl i hi)] at hbelow'
    rw [take_add_one, take_add_one, hbelow, hbelow', ih hbelow hbelow']

section

variable {κ : Type*} [DecidableEq κ]

def netStep (step : σ → ε → σ) (net : κ → σ) (m : κ × ε) : κ → σ :=
  Function.update net m.1 (step (net m.1) m.2)

lemma forall_netStep {P : κ → σ → Prop} {net : κ → σ} {m : κ × ε} (hnet : ∀ k, P k (net k))
    (hmoved : P m.1 (step (net m.1) m.2)) : ∀ k, P k (netStep step net m k) :=
  (Function.forall_update_iff net P).mpr ⟨hmoved, fun k _ => hnet k⟩

end

end Machine

namespace Quorum

variable {ι : Type*} [DecidableEq ι]

/-- Two sets of at least `n - f` out of `n > 3 f` members share more than `f` of them. -/
theorem lt_card_inter {univ A B : Finset ι} {n f : ℕ} (hn : univ.card ≤ n) (hf : 3 * f < n) (hA : A ⊆ univ)
    (hB : B ⊆ univ) (hAc : n - f ≤ A.card) (hBc : n - f ≤ B.card) : f < (A ∩ B).card := by
  have hunion := (Finset.card_le_card (Finset.union_subset hA hB)).trans hn
  have hinter := Finset.card_union_add_card_inter A B
  omega

/-- Any two sets of `m` members share more than `f` of them exactly when their sizes force it. -/
theorem forall_lt_card_inter_iff {univ : Finset ι} {m f : ℕ} (hm : m ≤ univ.card) :
    (∀ A ⊆ univ, ∀ B ⊆ univ, A.card = m → B.card = m → f < (A ∩ B).card) ↔ univ.card + f < 2 * m := by
  constructor
  · intro h
    obtain ⟨A, hA, hAc⟩ := Finset.exists_subset_card_eq hm
    have hrest := Finset.card_sdiff_of_subset hA
    -- the second set takes what the first leaves out, as far as it goes
    rcases le_total m (univ \ A).card with hle | hle
    · obtain ⟨B, hB, hBc⟩ := Finset.exists_subset_card_eq hle
      have hlt := h A hA B (hB.trans Finset.sdiff_subset) hAc hBc
      have hdisj := Finset.disjoint_of_subset_right hB Finset.disjoint_sdiff
      rw [Finset.disjoint_iff_inter_eq_empty.mp hdisj, Finset.card_empty] at hlt
      omega
    · obtain ⟨B, hsub, hB, hBc⟩ := Finset.exists_subsuperset_card_eq Finset.sdiff_subset hle hm
      have hlt := h A hA B hB hAc hBc
      have hunion : A ∪ B = univ :=
        (Finset.union_subset hA hB).antisymm fun i hi => by
          by_cases hiA : i ∈ A
          · exact Finset.mem_union_left B hiA
          · exact Finset.mem_union_right A (hsub (Finset.mem_sdiff.mpr ⟨hi, hiA⟩))
      have hinter := Finset.card_union_add_card_inter A B
      rw [hunion] at hinter
      omega
  · intro h A hA B hB hAc hBc
    have hunion := Finset.card_le_card (Finset.union_subset hA hB)
    have hinter := Finset.card_union_add_card_inter A B
    omega

theorem exists_common_honest {univ A B faulty : Finset ι} {n f : ℕ} (hn : univ.card = n)
    (hf : 3 * f < n) (hA : A ⊆ univ) (hB : B ⊆ univ) (hAc : n - f ≤ A.card) (hBc : n - f ≤ B.card)
    (hfaulty : faulty.card ≤ f) : ∃ i, i ∈ A ∧ i ∈ B ∧ i ∉ faulty := by
  have hlt := hfaulty.trans_lt (lt_card_inter hn.le hf hA hB hAc hBc)
  obtain ⟨i, hi, hout⟩ := Finset.exists_mem_notMem_of_card_lt_card hlt
  exact ⟨i, (Finset.mem_inter.mp hi).1, (Finset.mem_inter.mp hi).2, hout⟩

/-- Records with pairwise different tags, among which two with one owner always carry one tag, have as many owners as
there are records. -/
theorem card_owners_eq_length {α σ : Type*} {tag : α → σ} {owner : α → ι} {l : List α} (hnodup : (l.map tag).Nodup)
    (hone : ∀ a ∈ l, ∀ b ∈ l, owner a = owner b → tag a = tag b) : (l.map owner).toFinset.card = l.length := by
  have hnd : (l.map owner).Nodup := by
    refine List.Nodup.map_on (fun a ha b hb hab => ?_) (hnodup.of_map tag)
    exact List.inj_on_of_nodup_map hnodup ha hb (hone a ha b hb hab)
  rw [List.toFinset_card_of_nodup hnd, List.length_map]

end Quorum
