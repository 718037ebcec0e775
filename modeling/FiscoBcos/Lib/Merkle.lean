import Mathlib.Data.List.TakeDrop

/-!
# Merkle trees of a fixed width

A list of byte strings is hashed group by group until one string is left, whose hash is the root. Nothing marks the
leaves.
-/

namespace Merkle

open List Option

variable {d : Nat}

open Function

variable {α β : Type*} (arity : Nat) (hash : List α → β) (asBytes : β → List α)

def group (l : List (List α)) (i : Nat) : List (List α) :=
  (l.drop (i * arity)).take arity

def groups (l : List (List α)) : Nat :=
  (l.length + arity - 1) / arity

def higherLevel (l : List (List α)) : List (List α) :=
  (range (groups arity l)).map fun i => asBytes (hash (group arity l i).flatten)

def reduce : Nat → List (List α) → List (List α)
  | 0, l => l
  | k + 1, l => if 1 < l.length then reduce k (higherLevel arity hash asBytes l) else l

def root (l : List (List α)) : β :=
  if l = [] then hash [] else hash ((reduce arity hash asBytes l.length l).headD [])

def Aligned (l l' : List (List α)) : Prop :=
  ∀ (i : Nat) (x y : List α), l[i]? = some x → l'[i]? = some y → x.length = y.length

/-- No string is empty, and the first group is not as long as a number of hashes of this size. -/
structure Leaves (width : Nat) (l : List (List α)) : Prop where
  nonempty : ∀ x ∈ l, x ≠ []
  size : ¬width ∣ (l.take arity).flatten.length

variable {arity hash asBytes} {l l' : List (List α)} {width : Nat}

lemma eq_of_flatten_eq (halign : Aligned l l') (hl : ∀ x ∈ l, x ≠ []) (hl' : ∀ x ∈ l', x ≠ [])
    (h : l.flatten = l'.flatten) : l = l' := by
  induction l generalizing l' with
  | nil =>
    cases l' with
    | nil => rfl
    | cons y =>
      have hy := append_eq_nil_iff.mp h.symm
      exact absurd hy.1 (hl' y mem_cons_self)
  | cons x l ih =>
    cases l' with
    | nil =>
      have hx := append_eq_nil_iff.mp h
      exact absurd hx.1 (hl x mem_cons_self)
    | cons y =>
      have hsize : x.length = y.length := halign 0 x y rfl rfl
      obtain ⟨hxy, hrest⟩ := append_inj h hsize
      rw [hxy, ih (fun i => halign (i + 1)) (fun z hz => hl z (mem_cons_of_mem _ hz))
        (fun z hz => hl' z (mem_cons_of_mem _ hz)) hrest]

lemma length_flatten_of_forall (h : ∀ x ∈ l, x.length = width) : l.flatten.length = l.length * width := by
  rw [length_flatten, map_congr_left h, map_const', sum_replicate_nat]

lemma dvd_length_of_forall (h : ∀ x ∈ l, x.length = width) : width ∣ l.flatten.length := by
  rw [length_flatten_of_forall h]
  exact Nat.dvd_mul_left width l.length

lemma getElem?_group (harity : 0 < arity) (l : List (List α)) (i : Nat) :
    (group arity l (i / arity))[i % arity]? = l[i]? := by
  unfold group
  rw [getElem?_take_of_lt (Nat.mod_lt i harity), getElem?_drop, Nat.mul_comm, Nat.div_add_mod]

lemma lt_groups (harity : 0 < arity) {i : Nat} (h : i < l.length) : i / arity < groups arity l := by
  unfold groups
  rw [Nat.div_lt_iff_lt_mul harity]
  have hmod := Nat.div_add_mod (l.length + arity - 1) arity
  have hlt := Nat.mod_lt (l.length + arity - 1) harity
  rw [Nat.mul_comm] at hmod
  omega

lemma groups_lt (harity : 2 ≤ arity) (h : 2 ≤ l.length) : groups arity l < l.length := by
  unfold groups
  rw [Nat.div_lt_iff_lt_mul (by omega)]
  have hmul : l.length * 2 ≤ l.length * arity := Nat.mul_le_mul_left _ harity
  by_cases hbig : arity ≤ l.length
  · omega
  · have hsquare : 2 * arity ≤ l.length * arity := Nat.mul_le_mul_right _ h
    omega

lemma groups_pos (harity : 0 < arity) (h : l ≠ []) : 0 < groups arity l := by
  exact Nat.zero_lt_of_lt (lt_groups harity (length_pos_iff.mpr h))

lemma eq_of_groups_eq (harity : 0 < arity) (hcount : groups arity l = groups arity l')
    (h : ∀ i < groups arity l, group arity l i = group arity l' i) : l = l' := by
  apply ext_getElem?
  intro i
  by_cases hi : i < l.length ∨ i < l'.length
  · have hlt : i / arity < groups arity l := by
      cases hi with
      | inl hi => exact lt_groups harity hi
      | inr hi => rw [hcount]; exact lt_groups harity hi
    rw [← getElem?_group harity l i, ← getElem?_group harity l' i, h _ hlt]
  · rw [getElem?_eq_none (by omega), getElem?_eq_none (by omega)]

lemma Aligned.group (h : Aligned l l') (i : Nat) : Aligned (group arity l i) (group arity l' i) := by
  intro j x y hx hy
  unfold Merkle.group at hx hy
  have hj : j < arity := by
    have hlt := (List.getElem?_eq_some_iff.mp hx).1
    rw [length_take] at hlt
    omega
  rw [getElem?_take_of_lt hj, getElem?_drop] at hx hy
  exact h _ x y hx hy

lemma mem_of_mem_group {i : Nat} {x : List α} (h : x ∈ group arity l i) : x ∈ l :=
  mem_of_mem_drop (mem_of_mem_take h)

section

variable (hwidth : ∀ s, (asBytes (hash s)).length = width) (hinj : Injective fun s => asBytes (hash s))
include hinj

lemma higherLevel_inj (harity : 0 < arity) (halign : Aligned l l') (hl : ∀ x ∈ l, x ≠ []) (hl' : ∀ x ∈ l', x ≠ [])
    (h : higherLevel arity hash asBytes l = higherLevel arity hash asBytes l') : l = l' := by
  have hcount : groups arity l = groups arity l' := by
    have hlen := congrArg length h
    unfold higherLevel at hlen
    rwa [length_map, length_map, length_range, length_range] at hlen
  apply eq_of_groups_eq harity hcount
  intro i hi
  have hi' : i < groups arity l' := hcount ▸ hi
  have hget := congrArg (·[i]?) h
  unfold higherLevel at hget
  simp only [getElem?_map, getElem?_range hi, getElem?_range hi', map_some, some.injEq] at hget
  exact eq_of_flatten_eq (halign.group i) (fun x hx => hl x (mem_of_mem_group hx))
    (fun x hx => hl' x (mem_of_mem_group hx)) (hinj hget)

omit hinj
include hwidth

lemma length_of_mem_higherLevel {x : List α} (h : x ∈ higherLevel arity hash asBytes l) : x.length = width := by
  obtain ⟨i, -, rfl⟩ := mem_map.mp h
  exact hwidth _

lemma length_of_mem_iterate {x : List α} (h : x ∈ (higherLevel arity hash asBytes)^[d + 1] l) : x.length = width := by
  rw [iterate_succ_apply'] at h
  exact length_of_mem_higherLevel hwidth h

lemma dvd_length_flatten {n : Nat} : width ∣ (((higherLevel arity hash asBytes)^[d + 1] l).take n).flatten.length := by
  apply dvd_length_of_forall
  intro x hx
  exact length_of_mem_iterate hwidth (mem_of_mem_take hx)

lemma iterate_nonempty (hpos : 0 < width) : ∀ x ∈ (higherLevel arity hash asBytes)^[d + 1] l, x ≠ [] := by
  intro x hx hnil
  have hlen := length_of_mem_iterate hwidth hx
  rw [hnil] at hlen
  exact absurd hlen (Nat.ne_of_lt hpos)

lemma iterate_aligned {d' : Nat} :
    Aligned ((higherLevel arity hash asBytes)^[d + 1] l) ((higherLevel arity hash asBytes)^[d' + 1] l') := by
  intro i x y hx hy
  rw [length_of_mem_iterate hwidth (mem_of_getElem? hx), length_of_mem_iterate hwidth (mem_of_getElem? hy)]

include hinj

lemma iterate_inj (harity : 0 < arity) (hpos : 0 < width) (halign : Aligned l l') (hl : ∀ x ∈ l, x ≠ [])
    (hl' : ∀ x ∈ l', x ≠ []) (d : Nat)
    (h : (higherLevel arity hash asBytes)^[d] l = (higherLevel arity hash asBytes)^[d] l') : l = l' := by
  induction d with
  | zero => exact h
  | succ d ih =>
    apply ih
    rw [iterate_succ_apply', iterate_succ_apply'] at h
    cases d with
    | zero => exact higherLevel_inj hinj harity halign hl hl' h
    | succ =>
      exact higherLevel_inj hinj harity (iterate_aligned hwidth) (iterate_nonempty hwidth hpos)
        (iterate_nonempty hwidth hpos) h

lemma iterate_ne (harity : 0 < arity) (hpos : 0 < width) (hne : l ≠ []) (hl : Leaves arity width l) {e : Nat} :
    (higherLevel arity hash asBytes)^[d] l ≠ (higherLevel arity hash asBytes)^[d + (e + 1)] l' := by
  intro h
  induction d with
  | zero =>
    apply hl.size
    change l = _ at h
    rw [h]
    exact dvd_length_flatten hwidth
  | succ d ih =>
    apply ih
    rw [show d + 1 + (e + 1) = d + (e + 1) + 1 by omega, iterate_succ_apply', iterate_succ_apply'] at h
    cases d with
    | zero =>
      -- the first group of leaves would be one of hashes
      change higherLevel arity hash asBytes l = _ at h
      have hget := congrArg (·[0]?) h
      have hzero : 0 < groups arity l := groups_pos harity hne
      have hcount := congrArg length h
      unfold higherLevel at hget hcount
      rw [length_map, length_map, length_range, length_range] at hcount
      simp only [getElem?_map, getElem?_range hzero, getElem?_range (hcount ▸ hzero), map_some,
        some.injEq] at hget
      have hflat := hinj hget
      unfold group at hflat
      rw [Nat.zero_mul, drop_zero, drop_zero] at hflat
      exfalso
      apply hl.size
      rw [hflat]
      exact dvd_length_flatten hwidth
    | succ =>
      exact higherLevel_inj hinj harity (iterate_aligned hwidth) (iterate_nonempty hwidth hpos)
        (iterate_nonempty hwidth hpos) h

omit hwidth hinj

lemma length_higherLevel (l : List (List α)) : (higherLevel arity hash asBytes l).length = groups arity l := by
  unfold higherLevel
  rw [length_map, length_range]

/-- Induction over the levels of a tree, in which one string is left after at most `k` of them. -/
@[elab_as_elim]
theorem level_induction (hash : List α → β) (asBytes : β → List α) {motive : Nat → List (List α) → Prop} (harity : 2 ≤ arity)
    (one : ∀ k x, motive k [x]) (level : ∀ k l, 1 < l.length → motive k (higherLevel arity hash asBytes l) → motive (k + 1) l)
    (hne : l ≠ []) {k : Nat} (hk : l.length ≤ k + 1) : motive k l := by
  have hpos := length_pos_iff.mpr hne
  induction k generalizing l with
  | zero =>
    obtain ⟨x, rfl⟩ := length_eq_one_iff.mp (show l.length = 1 by omega)
    exact one 0 x
  | succ k ih =>
    by_cases hlen : 1 < l.length
    · have hlevel : (higherLevel arity hash asBytes l).length = groups arity l := length_higherLevel l
      have hgroups : 0 < groups arity l := groups_pos (by omega) hne
      have hlt : groups arity l < l.length := groups_lt harity hlen
      exact level k l hlen (ih (length_pos_iff.mp (by omega)) (by omega) (by omega))
    · obtain ⟨x, rfl⟩ := length_eq_one_iff.mp (show l.length = 1 by omega)
      exact one (k + 1) x

lemma reduce_singleton (k : Nat) (x : List α) : reduce arity hash asBytes k [x] = [x] := by
  cases k <;> rfl

lemma reduce_eq_iterate (harity : 2 ≤ arity) (hne : l ≠ []) {k : Nat} (hk : l.length ≤ k + 1) :
    ∃ d x, reduce arity hash asBytes k l = [x] ∧ (higherLevel arity hash asBytes)^[d] l = [x] := by
  refine level_induction hash asBytes harity (fun k x => ⟨0, x, reduce_singleton k x, rfl⟩) (fun k l hlen ih => ?_) hne hk
  obtain ⟨d, x, hreduce, hiterate⟩ := ih
  exact ⟨d + 1, x, by rw [reduce, if_pos hlen, hreduce], hiterate⟩

end

variable (harity : 2 ≤ arity) (hpos : 0 < width) (hwidth : ∀ s, (asBytes (hash s)).length = width)

include harity hpos hwidth

lemma root_spec (hne : l ≠ []) (hl : ∀ x ∈ l, x ≠ []) :
    ∃ d x, root arity hash asBytes l = hash x ∧ (higherLevel arity hash asBytes)^[d] l = [x] ∧ x ≠ [] := by
  obtain ⟨d, x, hreduce, hiterate⟩ := reduce_eq_iterate harity hne (Nat.le_succ l.length)
  have hroot : root arity hash asBytes l = hash x := by
    unfold root
    rw [if_neg hne, hreduce]
    rfl
  refine ⟨d, x, hroot, hiterate, ?_⟩
  have hmem : x ∈ (higherLevel arity hash asBytes)^[d] l := by
    rw [hiterate]
    exact mem_singleton_self x
  cases d with
  | zero => exact hl x hmem
  | succ => exact iterate_nonempty hwidth hpos x hmem

lemma root_inj (hhash : Injective hash) (hbytes : Injective asBytes) (halign : Aligned l l')
    (hl : l ≠ [] → Leaves arity width l) (hl' : l' ≠ [] → Leaves arity width l')
    (h : root arity hash asBytes l = root arity hash asBytes l') : l = l' := by
  have hinj : Injective fun s => asBytes (hash s) := hbytes.comp hhash
  have hempty : root arity hash asBytes [] = hash [] := rfl
  by_cases hne : l = []
  · by_cases hne' : l' = []
    · rw [hne, hne']
    · obtain ⟨d, x, hroot, -, hx⟩ := root_spec harity hpos hwidth hne' (hl' hne').nonempty
      rw [hne, hempty, hroot] at h
      exact absurd (hhash h).symm hx
  · obtain ⟨d, x, hroot, hlevel, hx⟩ := root_spec harity hpos hwidth hne (hl hne).nonempty
    by_cases hne' : l' = []
    · rw [hne', hempty, hroot] at h
      exact absurd (hhash h) hx
    obtain ⟨d', x', hroot', hlevel', -⟩ := root_spec harity hpos hwidth hne' (hl' hne').nonempty
    rw [hroot, hroot'] at h
    rw [← hhash h, ← hlevel] at hlevel'
    -- the trees have the same height
    rcases Nat.lt_trichotomy d d' with hlt | heq | hgt
    · obtain ⟨e, rfl⟩ := Nat.exists_eq_add_of_lt hlt
      exact absurd hlevel'.symm (iterate_ne hwidth hinj (by omega) hpos hne (hl hne))
    · rw [heq] at hlevel'
      exact iterate_inj hwidth hinj (by omega) hpos halign (hl hne).nonempty (hl' hne').nonempty d' hlevel'.symm
    · obtain ⟨e, rfl⟩ := Nat.exists_eq_add_of_lt hgt
      exact absurd hlevel' (iterate_ne hwidth hinj (by omega) hpos hne' (hl' hne'))

end Merkle
