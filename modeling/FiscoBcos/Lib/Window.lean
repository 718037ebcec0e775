import Mathlib.Data.List.GetD
import Mathlib.Data.Nat.ModEq
import Mathlib.Order.Interval.Finset.Nat

/-!
# Sliding windows

The window of `k` values of a sequence from `start` on. It slides by dropping its first value and taking
in the next one, as long as its values are different.
-/

namespace Window

open Finset Nat

variable {α : Type*} (f : ℕ → α)

section

variable [DecidableEq α]

def window (start k : ℕ) : Finset α :=
  (Ico start (start + k)).image f

lemma window_zero (start : ℕ) : window f start 0 = ∅ := by
  simp [window]

lemma window_succ (start k : ℕ) : window f start (k + 1) = insert (f start) (window f (start + 1) k) := by
  have hIco : Ico start (start + (k + 1)) = insert start (Ico (start + 1) (start + 1 + k)) := by
    ext j
    simp
    omega
  unfold window
  rw [hIco, image_insert]

lemma window_eq_range (start k : ℕ) : window f start k = (range k).image fun i => f (start + i) := by
  ext x
  simp only [window, mem_image, mem_Ico, mem_range]
  constructor
  · rintro ⟨j, hj, rfl⟩
    exact ⟨j - start, by omega, by rw [Nat.add_sub_cancel' hj.1]⟩
  · rintro ⟨i, hi, rfl⟩
    exact ⟨start + i, by omega, rfl⟩

lemma slide {start k : ℕ} (hk : 0 < k) (hinj : Set.InjOn f (Ico start (start + k))) :
    insert (f (start + k)) ((window f start k).erase (f start)) = window f (start + 1) k := by
  have hmem : start ∈ Ico start (start + k) := mem_Ico.mpr (by omega)
  have hrest : (window f start k).erase (f start) = (Ico (start + 1) (start + k)).image f := by
    ext x
    simp only [window, mem_erase, mem_image, mem_Ico]
    constructor
    · rintro ⟨hne, j, hj, rfl⟩
      have hj' : j ≠ start := fun heq => hne (congrArg f heq)
      exact ⟨j, by omega, rfl⟩
    · rintro ⟨j, hj, rfl⟩
      refine ⟨fun heq => ?_, j, by omega, rfl⟩
      have := hinj (mem_coe.mpr (mem_Ico.mpr (by omega))) (mem_coe.mpr hmem) heq
      omega
  have hIco : Ico (start + 1) (start + 1 + k) = insert (start + k) (Ico (start + 1) (start + k)) := by
    ext j
    simp
    omega
  unfold window at hrest ⊢
  rw [hrest, hIco, image_insert]

end

def cyclic (l : List α) (d : α) (i : ℕ) : α :=
  l.getD (i % l.length) d

lemma window_cyclic_min [DecidableEq α] {l : List α} {d : α} (hl : 0 < l.length) (start k : ℕ) :
    window (cyclic l d) start k = window (cyclic l d) start (min k l.length) := by
  ext x
  simp only [window, mem_image, mem_Ico]
  constructor
  · rintro ⟨j, hj, rfl⟩
    have hlt := mod_lt (j - start) hl
    have hle := mod_le (j - start) l.length
    refine ⟨start + (j - start) % l.length, by omega, ?_⟩
    rw [cyclic, Nat.add_mod_mod, Nat.add_sub_cancel' hj.1, cyclic]
  · rintro ⟨j, hj, rfl⟩
    exact ⟨j, by omega, rfl⟩

lemma injOn_cyclic {l : List α} (hl : l.Nodup) (d : α) {start k : ℕ} (hk : k ≤ l.length) :
    Set.InjOn (cyclic l d) (Ico start (start + k)) := by
  intro i hi j hj heq
  have hi := mem_Ico.mp (mem_coe.mp hi)
  have hj := mem_Ico.mp (mem_coe.mp hj)
  have hpos : 0 < l.length := by omega
  have hilt : i % l.length < l.length := mod_lt _ hpos
  have hjlt : j % l.length < l.length := mod_lt _ hpos
  unfold cyclic at heq
  rw [List.getD_eq_getElem _ _ hilt, List.getD_eq_getElem _ _ hjlt] at heq
  have hmod : i % l.length = j % l.length := hl.getElem_inj_iff.mp heq
  -- both lie within one turn of the list
  rcases le_total i j with hij | hij
  · have hdvd : l.length ∣ j - i := (modEq_iff_dvd' hij).mp hmod
    have := eq_zero_of_dvd_of_lt hdvd (by omega)
    omega
  · have hdvd : l.length ∣ i - j := (modEq_iff_dvd' hij).mp hmod.symm
    have := eq_zero_of_dvd_of_lt hdvd (by omega)
    omega

end Window
