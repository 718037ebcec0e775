import Mathlib.Algebra.Order.BigOperators.Group.Finset

/-!
# Counting down

Every `p` of a finite set holds a list of those it still has to release. What a `t` waits for is the
number of its entries in all the lists; it is free when that number is zero.
-/

namespace Countdown

open Function Finset

variable {ι β κ : Type*} [DecidableEq κ]

def due (s : Finset ι) (rest : ι → List κ) (t : κ) : ℕ :=
  ∑ p ∈ s, (rest p).count t

variable {rest : ι → List κ}

lemma due_eq_zero_iff {s : Finset ι} {t : κ} : due s rest t = 0 ↔ ∀ p ∈ s, t ∉ rest p := by
  simp [due, List.count_eq_zero]

variable [DecidableEq ι] {s : Finset ι} {i j : ι}

lemma sum_update (hi : i ∈ s) {g : β → ℕ} {f : ι → β} {x : β} :
    ∑ k ∈ s, g (update f i x k) + g (f i) = ∑ k ∈ s, g (f k) + g x := by
  have hrest : ∑ k ∈ s.erase i, g (update f i x k) = ∑ k ∈ s.erase i, g (f k) := by
    apply sum_congr rfl
    intro k hk
    rw [update_of_ne (ne_of_mem_erase hk)]
  rw [← add_sum_erase s _ hi, ← add_sum_erase s (fun k => g (f k)) hi, hrest, update_self]
  omega

lemma due_update (hi : i ∈ s) {l : List κ} {t : κ} :
    due s (update rest i l) t + (rest i).count t = due s rest t + l.count t :=
  sum_update hi

lemma due_of_cons {t : κ} {l : List κ} (hi : i ∈ s) (h : rest i = t :: l) (u : κ) :
    due s rest u = due s (update rest i l) u + if u = t then 1 else 0 := by
  have hupdate : due s (update rest i l) u + (rest i).count u = due s rest u + l.count u := due_update hi
  rw [h, List.count_cons] at hupdate
  by_cases hut : u = t
  · simp only [hut, beq_self_eq_true, if_true] at hupdate ⊢
    omega
  · simp only [beq_iff_eq, Ne.symm hut, hut, if_false] at hupdate ⊢
    omega

lemma add_le_sum (hi : i ∈ s) (hj : j ∈ s) (h : i ≠ j) (g : ι → ℕ) : g i + g j ≤ ∑ k ∈ s, g k := by
  rw [← add_sum_erase _ _ hi]
  apply Nat.add_le_add_left
  exact single_le_sum (fun _ _ => Nat.zero_le _) (mem_erase.mpr ⟨h.symm, hj⟩)

end Countdown
