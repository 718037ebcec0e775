import Mathlib.Data.Int.Log
import Mathlib.Data.Rat.Floor
import Mathlib.Tactic.Positivity

/-!
# Rounding to a binary floating point format

Numbers are rounded to the nearest one with a significand of `p` bits, ties to even. The exponent is not bounded.
-/

namespace Rounding

open Nat

def halfEven (x : ℚ) : ℤ :=
  if x - ⌊x⌋ < 1 / 2 ∨ x - ⌊x⌋ = 1 / 2 ∧ ⌊x⌋ % 2 = 0 then ⌊x⌋ else ⌊x⌋ + 1

def ulp (p : ℕ) (x : ℚ) : ℚ :=
  2 ^ (Int.log 2 |x| - (p - 1))

def toPrecision (p : ℕ) (x : ℚ) : ℚ :=
  if x = 0 then 0 else halfEven (x / ulp p x) * ulp p x

lemma floor_le_halfEven (x : ℚ) : ⌊x⌋ ≤ halfEven x := by
  unfold halfEven
  split <;> omega

lemma halfEven_le_floor_add_one (x : ℚ) : halfEven x ≤ ⌊x⌋ + 1 := by
  unfold halfEven
  split <;> omega

lemma halfEven_intCast (n : ℤ) : halfEven n = n := by
  unfold halfEven
  rw [Int.floor_intCast, sub_self, if_pos (.inl (by norm_num))]

lemma halfEven_mono {x y : ℚ} (h : x ≤ y) : halfEven x ≤ halfEven y := by
  have hfloor : ⌊x⌋ ≤ ⌊y⌋ := Int.floor_mono h
  cases Int.lt_or_eq_of_le hfloor with
  | inl hlt => exact (halfEven_le_floor_add_one x).trans (le_trans hlt (floor_le_halfEven y))
  | inr heq =>
    -- the larger one is not rounded down to the floor that both have if the smaller one is rounded up
    unfold halfEven
    rw [heq]
    split_ifs with hx hy hy
    · rfl
    · omega
    · exfalso
      apply hx
      cases hy with
      | inl => exact .inl (by linarith)
      | inr hy =>
        cases lt_or_eq_of_le (show x - ⌊y⌋ ≤ 1 / 2 by linarith [hy.1]) with
        | inl hlt => exact .inl hlt
        | inr heq => exact .inr ⟨heq, hy.2⟩
    · rfl

variable {p : ℕ} {x y : ℚ}

lemma ulp_pos : 0 < ulp p x :=
  zpow_pos (by norm_num) _

lemma toPrecision_zero (p : ℕ) : toPrecision p 0 = 0 :=
  if_pos rfl

lemma toPrecision_eq_self {n : ℤ} (h : x = n * ulp p x) : toPrecision p x = x := by
  unfold toPrecision
  split
  · rename_i hx
    exact hx.symm
  have hquot : x / ulp p x = n := by
    rw [div_eq_iff ulp_pos.ne']
    exact h
  rw [hquot, halfEven_intCast]
  exact h.symm

lemma two_pow_le_div_ulp (hx : 0 < x) : (2 : ℚ) ^ ((p : ℤ) - 1) ≤ x / ulp p x := by
  rw [le_div_iff₀ ulp_pos]
  unfold ulp
  rw [← zpow_add₀ (by norm_num), abs_of_pos hx, add_sub_cancel]
  exact Int.zpow_log_le_self (by norm_num) hx

lemma div_ulp_le (hx : 0 < x) : x / ulp p x ≤ 2 ^ (p : ℤ) := by
  rw [div_le_iff₀ ulp_pos]
  unfold ulp
  rw [← zpow_add₀ (by norm_num), abs_of_pos hx]
  have hlt := Int.lt_zpow_succ_log_self (R := ℚ) (b := 2) (by norm_num) x
  have hexp : (p : ℤ) + (Int.log 2 x - (p - 1)) = Int.log 2 x + 1 := by ring
  rw [hexp]
  exact hlt.le

lemma toPrecision_nonneg (hx : 0 ≤ x) : 0 ≤ toPrecision p x := by
  unfold toPrecision
  split
  · exact le_rfl
  have hround : halfEven (0 : ℤ) ≤ halfEven (x / ulp p x) :=
    halfEven_mono (by rw [Int.cast_zero]; exact div_nonneg hx ulp_pos.le)
  rw [halfEven_intCast] at hround
  exact mul_nonneg (Int.cast_nonneg hround) ulp_pos.le

lemma toPrecision_mono (hp : 0 < p) (hx : 0 ≤ x) (h : x ≤ y) : toPrecision p x ≤ toPrecision p y := by
  cases lt_or_eq_of_le hx with
  | inr hzero =>
    rw [← hzero, toPrecision_zero]
    exact toPrecision_nonneg (hx.trans h)
  | inl hpos =>
    have hypos : 0 < y := hpos.trans_le h
    have hlog : Int.log 2 x ≤ Int.log 2 y := Int.log_mono_right hpos h
    unfold toPrecision
    rw [if_neg hpos.ne', if_neg hypos.ne']
    cases Int.lt_or_eq_of_le hlog with
    | inr heq =>
      have hulp : ulp p x = ulp p y := by
        unfold ulp
        rw [abs_of_pos hpos, abs_of_pos hypos, heq]
      rw [hulp]
      have hround : halfEven (x / ulp p y) ≤ halfEven (y / ulp p y) :=
        halfEven_mono (div_le_div_of_nonneg_right h ulp_pos.le)
      exact mul_le_mul_of_nonneg_right (Int.cast_le.mpr hround) ulp_pos.le
    | inl hlt =>
      -- the power of two between them is in the format
      have hbelow : (halfEven (x / ulp p x) : ℚ) ≤ 2 ^ (p : ℤ) := by
        have hround : halfEven (x / ulp p x) ≤ halfEven ((2 ^ p : ℤ) : ℚ) :=
          halfEven_mono (by rw [Int.cast_pow]; exact_mod_cast div_ulp_le hpos)
        rw [halfEven_intCast] at hround
        exact_mod_cast hround
      have habove : (2 : ℚ) ^ ((p : ℤ) - 1) ≤ halfEven (y / ulp p y) := by
        have hcast : ((2 : ℚ) ^ ((p : ℤ) - 1)) = ((2 ^ (p - 1) : ℤ) : ℚ) := by
          rw [Int.cast_pow, ← zpow_natCast, cast_sub hp]
          rfl
        have hround : halfEven ((2 ^ (p - 1) : ℤ) : ℚ) ≤ halfEven (y / ulp p y) :=
          halfEven_mono (by rw [← hcast]; exact two_pow_le_div_ulp hypos)
        rw [halfEven_intCast] at hround
        rw [hcast]
        exact Int.cast_le.mpr hround
      calc (halfEven (x / ulp p x) : ℚ) * ulp p x
          ≤ 2 ^ (p : ℤ) * ulp p x := mul_le_mul_of_nonneg_right hbelow ulp_pos.le
        _ = 2 ^ (Int.log 2 x + 1) := by
            unfold ulp
            rw [← zpow_add₀ (by norm_num), abs_of_pos hpos]
            congr 1
            ring
        _ ≤ 2 ^ Int.log 2 y := zpow_le_zpow_right₀ (by norm_num) hlt
        _ = 2 ^ ((p : ℤ) - 1) * ulp p y := by
            unfold ulp
            rw [← zpow_add₀ (by norm_num), abs_of_pos hypos, add_sub_cancel]
        _ ≤ halfEven (y / ulp p y) * ulp p y := mul_le_mul_of_nonneg_right habove ulp_pos.le

lemma lt_of_toPrecision_lt (hp : 0 < p) (hy : 0 ≤ y) (h : toPrecision p x < toPrecision p y) : x < y := by
  by_contra hle
  exact absurd (toPrecision_mono hp hy (not_lt.mp hle)) (not_le.mpr h)

lemma toPrecision_natCast {n : ℕ} (hp : 0 < p) (hn : n ≤ 2 ^ p) : toPrecision p n = n := by
  cases Nat.eq_zero_or_pos n with
  | inl hzero =>
    rw [hzero, cast_zero, toPrecision_zero]
  | inr hpos =>
    have hulp : ulp p (n : ℚ) = 2 ^ ((log 2 n : ℤ) - (p - 1)) := by
      unfold ulp
      rw [abs_of_nonneg (cast_nonneg n), Int.log_natCast]
    by_cases hlog : log 2 n < p
    · have hexp : ((p - 1 - log 2 n : ℕ) : ℤ) + ((log 2 n : ℤ) - (p - 1)) = 0 := by omega
      apply toPrecision_eq_self (n := n * 2 ^ (p - 1 - log 2 n))
      rw [hulp, Int.cast_mul, Int.cast_pow, mul_assoc, Int.cast_ofNat, ← zpow_natCast, ← zpow_add₀ (by norm_num), hexp,
        zpow_zero, mul_one, Int.cast_natCast]
    -- only the largest of the numbers has so many digits
    have hle : 2 ^ p ≤ n := pow_le_of_le_log hpos.ne' (not_lt.mp hlog)
    have heq : n = 2 ^ p := le_antisymm hn hle
    have hlog : log 2 n = p := by rw [heq, log_pow (by norm_num)]
    have hexp : ((p - 1 : ℕ) : ℤ) + ((p : ℤ) - (p - 1)) = p := by omega
    apply toPrecision_eq_self (n := 2 ^ (p - 1))
    rw [hulp, hlog, Int.cast_pow, Int.cast_ofNat, ← zpow_natCast, ← zpow_add₀ (by norm_num), hexp, heq,
      cast_pow, zpow_natCast, cast_ofNat]

lemma foldl_toPrecision (hp : 0 < p) {l : List ℕ} {acc : ℕ} (h : acc + l.sum ≤ 2 ^ p) :
    (l.map Nat.cast).foldl (fun sum n => toPrecision p (sum + n)) (acc : ℚ) = (acc + l.sum : ℕ) := by
  induction l generalizing acc with
  | nil => rfl
  | cons n l ih =>
    rw [List.sum_cons, ← add_assoc] at h ⊢
    rw [List.map_cons, List.foldl_cons, ← cast_add, toPrecision_natCast hp (by omega)]
    exact ih h

end Rounding
