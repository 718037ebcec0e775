import Mathlib.Logic.Function.Basic

/-!
# Loops that may go on forever

A round of a loop either goes on with another state or leaves with a result. `run` makes at most a given
number of rounds; a loop ends with a result if some number of rounds is enough.
-/

namespace Loop

variable {σ ρ : Type*} (round : σ → σ ⊕ ρ)

def run : Nat → σ → Option ρ
  | 0, _ => none
  | k + 1, s => (round s).elim (run k) some

def Ends (s : σ) (r : ρ) : Prop :=
  ∃ k, run round k s = some r

variable {round} {s s' : σ} {r : ρ}

lemma ends_of_leave (h : round s = .inr r) : Ends round s r := by
  refine ⟨1, ?_⟩
  unfold run
  rw [h]
  rfl

lemma ends_of_go_on (h : round s = .inl s') (hs' : Ends round s' r) : Ends round s r := by
  obtain ⟨k, hk⟩ := hs'
  refine ⟨k + 1, ?_⟩
  unfold run
  rw [h]
  exact hk

lemma not_ends_of_invariant {P : σ → Prop} (hP : ∀ s, P s → ∃ s', round s = .inl s' ∧ P s') (hs : P s)
    {r : ρ} : ¬Ends round s r := by
  rintro ⟨k, hk⟩
  induction k generalizing s with
  | zero => cases hk
  | succ k ih =>
    obtain ⟨s', hround, hs'⟩ := hP s hs
    unfold run at hk
    rw [hround] at hk
    exact ih hs' hk

lemma not_ends_of_go_on (h : round s = .inl s') (hs' : ∀ r, ¬Ends round s' r) (r : ρ) : ¬Ends round s r := by
  rintro ⟨k, hk⟩
  cases k with
  | zero => cases hk
  | succ k =>
    unfold run at hk
    rw [h] at hk
    exact hs' r ⟨k, hk⟩

end Loop
