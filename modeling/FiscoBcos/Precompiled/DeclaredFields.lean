import FiscoBcos.Precompiled.TableFactoryPrecompiled
import FiscoBcos.Storage.TableHash

/-!
# What declared fields count for

Which names a field may have is decided by `checkNameValidate`, and which names count by `isHashField`.
-/

namespace FiscoBcos

open Condition Option Std.ExtTreeMap

lemma bytes_setField (r : Row) (field : Str) : ∃ before after, ∀ value, (r.setField field value).bytes =
      before ++ (if isHashField field then field ++ value else []) ++ after := by
  have hfields : ∃ before after, ∀ value, (r.setField field value).hashFields =
      before ++ [(field, value)].filter (fun f => isHashField f.1) ++ after := by
    refine ⟨(r.fields.toList.filter fun f => compare f.1 field = .lt).filter fun f => isHashField f.1,
      (r.fields.toList.filter fun f => compare field f.1 = .lt).filter fun f => isHashField f.1,
      fun value => ?_⟩
    unfold Row.hashFields Row.setField
    rw [OrderedMap.toList_insert, ← List.singleton_append, List.filter_append, List.filter_append, List.append_assoc]
  obtain ⟨before, after, hfields⟩ := hfields
  refine ⟨(before.flatMap fun f => [f.1, f.2]).flatten,
    (after.flatMap fun f => [f.1, f.2]).flatten ++ [Char.ofNat r.status.toNat], fun value => ?_⟩
  unfold Row.bytes Row.pieces
  rw [hfields]
  cases hhash : isHashField field <;> simp [hhash, Row.setField]

lemma bytes_injective_iff {field : Str} : (∀ (r : Row) (value value' : Str), value ≠ value' →
      (r.setField field value).bytes ≠ (r.setField field value').bytes) ↔ isHashField field = true := by
  constructor
  · intro h
    obtain ⟨before, after, hbytes⟩ := bytes_setField {} field
    have hne := h {} "0".toList "1".toList (by decide)
    rw [hbytes, hbytes] at hne
    by_contra hhash
    rw [if_neg hhash, if_neg hhash] at hne
    exact hne rfl
  · intro hhash r value value' hne heq
    obtain ⟨before, after, hbytes⟩ := bytes_setField r field
    rw [hbytes, hbytes, if_pos hhash, if_pos hhash] at heq
    exact hne (List.append_cancel_left (List.append_cancel_left (List.append_cancel_right heq)))

inductive Constraint where
  | EQ (value : Str)
  | NE (value : Str)
  | GT (value : Str)
  | GE (value : Str)
  | LT (value : Str)
  | LE (value : Str)
deriving DecidableEq

def Condition.place (field : Str) (c : Condition) : Constraint → Condition
  | .EQ value => c.EQ field value
  | .NE value => c.NE field value
  | .GT value => c.GT field value
  | .GE value => c.GE field value
  | .LT value => c.LT field value
  | .LE value => c.LE field value

def Condition.ofCalls (placed : List (Str × Constraint)) : Condition :=
  placed.foldl (fun c call => c.place call.1 call.2) {}

namespace Constraint

def left : Constraint → Option (Bool × Str)
  | EQ value | GE value => some (true, value)
  | NE value | GT value => some (false, value)
  | LT _ | LE _ => none

def right : Constraint → Option (Bool × Str)
  | EQ value | LE value => some (true, value)
  | NE value | LT value => some (false, value)
  | GT _ | GE _ => none

def Compares (bound value : Str) (inside : Int → Int → Prop) : Prop :=
  ∀ lhs, castInt64 bound = some lhs → ∃ rhs, fieldNumber value = some rhs ∧ inside lhs rhs

/-- What a constraint says of a value. A bound that is no number is compared with nothing. -/
def Holds : Constraint → Str → Prop
  | EQ bound, value => value = bound
  | NE bound, value => value ≠ bound
  | GT bound, value => Compares bound value fun lhs rhs => lhs < rhs
  | GE bound, value => Compares bound value fun lhs rhs => lhs ≤ rhs
  | LT bound, value => Compares bound value fun lhs rhs => rhs < lhs
  | LE bound, value => Compares bound value fun lhs rhs => rhs ≤ lhs

def onField (field : Str) (placed : List (Str × Constraint)) : List Constraint :=
  (placed.filter fun call => call.1 = field).map Prod.snd

/-- What a condition keeps of the calls on a field: each call takes the place of the ends it sets. -/
def range (calls : List Constraint) : Range :=
  calls.foldl (fun range k => ⟨k.left.getD range.left, k.right.getD range.right⟩)
    ⟨(false, UNLIMITED), (false, UNLIMITED)⟩

/-- Constraints on one field: a value that it has or has not, or at most one bound at each end. -/
def OneEach (calls : List Constraint) : Prop :=
  (calls.filterMap left).length ≤ 1 ∧ (calls.filterMap right).length ≤ 1

/-- Above and below the same number. -/
def Collide (calls : List Constraint) : Prop :=
  ∃ bound, .GT bound ∈ calls ∧ .LT bound ∈ calls ∧ (castInt64 bound).isSome

def Within (bound value : Str) (inside : Int → Int → Prop) : Prop :=
  ∃ lhs rhs, castInt64 bound = some lhs ∧ fieldNumber value = some rhs ∧ inside lhs rhs

/-- What a constraint says of a value, where a comparison takes two numbers. -/
def Matches : Constraint → Str → Prop
  | EQ bound, value => bound = value
  | NE bound, value => bound ≠ value
  | GT bound, value => Within bound value (· < ·)
  | GE bound, value => Within bound value (· ≤ ·)
  | LT bound, value => Within bound value (· > ·)
  | LE bound, value => Within bound value (· ≥ ·)

/-- A comparison with the text for a missing bound. -/
def Unlimited : Constraint → Prop
  | EQ _ | NE _ => False
  | GT bound | GE bound | LT bound | LE bound => bound = UNLIMITED

instance (k : Constraint) : Decidable k.Unlimited := by
  unfold Unlimited
  split <;> infer_instance

/-- No lower bound is the upper bound too, as it is kept. -/
def Separate (calls : List Constraint) : Prop :=
  ∀ k ∈ calls, ∀ k' ∈ calls, k.left = k'.right → k.left ≠ none → k = k'

/-- No bound is the text for a missing one, and the lower bound is not the upper bound too. -/
def Apart (calls : List Constraint) : Prop :=
  (∀ k ∈ calls, ¬k.Unlimited) ∧ Separate calls

/-- No value meets the constraints, also without those that are taken for missing ones. -/
def Unsatisfiable (calls : List Constraint) : Prop :=
  Separate calls ∧ ∀ value, ∃ k ∈ calls, ¬k.Unlimited ∧ ¬k.Matches value

end Constraint

section

open Constraint

lemma Condition.getElem?_place (c : Condition) (field other : Str) (k : Constraint) :
    (c.place field k).conditions[other]? = if other = field then
        some ⟨k.left.getD (c.conditions[field]?.elim (false, UNLIMITED) Range.left),
          k.right.getD (c.conditions[field]?.elim (false, UNLIMITED) Range.right)⟩ else c.conditions[other]? := by
  have hcompare : compare field other = .eq ↔ other = field := by
    rw [Std.LawfulEqCmp.compare_eq_iff_eq, eq_comm]
  cases k <;> simp only [place, EQ, NE, GT, GE, LT, LE, setLeft, setRight, getElem?_insert,
    getElem?_alter, hcompare, left, right] <;> cases c.conditions[field]? <;> rfl

lemma Constraint.range_concat (calls : List Constraint) (k : Constraint) :
    range (calls ++ [k]) = ⟨k.left.getD (range calls).left, k.right.getD (range calls).right⟩ :=
  List.foldl_concat ..

variable (field : Str) (placed : List (Str × Constraint))

lemma Condition.getElem?_ofCalls : (ofCalls placed).conditions[field]? =
    if onField field placed = [] then none else some (range (onField field placed)) := by
  induction placed using List.reverseRecOn with
  | nil => exact getElem?_empty
  | append_singleton placed call ih =>
    have hcalls : ofCalls (placed ++ [call]) = (ofCalls placed).place call.1 call.2 := List.foldl_concat ..
    rw [hcalls, getElem?_place]
    by_cases hfield : field = call.1
    · have hon : onField field (placed ++ [call]) = onField field placed ++ [call.2] := by
        simp [onField, hfield]
      rw [if_pos hfield, hon, if_neg (List.append_ne_nil_of_right_ne_nil _ (List.cons_ne_nil _ _)),
        ← hfield, ih, range_concat]
      by_cases hempty : onField field placed = []
      · rw [if_pos hempty, hempty]
        rfl
      · rw [if_neg hempty]
        rfl
    · have hon : onField field (placed ++ [call]) = onField field placed := by
        simp [onField, Ne.symm hfield]
      rw [if_neg hfield, hon, ih]

variable {field placed} in
lemma Constraint.mem_onField {k : Constraint} : k ∈ onField field placed ↔ (field, k) ∈ placed := by
  simp [onField]

variable {field placed} in
/-- A live row is taken if it has a value in the range of each field that counts. -/
lemma Condition.process_ofCalls {r : Row} (hlive : r.status = .normal ∧ r.deleted = false) :
    (ofCalls placed).process r = true ↔ ∀ p ∈ placed, isHashField p.1 = true →
      ∃ value, r.fields[p.1]? = some value ∧ (range (onField p.1 placed)).accepts value = true := by
  rw [process_iff]
  constructor
  · rintro ⟨-, -, h⟩ p hp hhash
    exact h p.1 _ ((getElem?_ofCalls ..).trans (if_neg (List.ne_nil_of_mem (mem_onField.mpr hp)))) hhash
  · refine fun h => ⟨hlive.1, hlive.2, fun key range hkey hhash => ?_⟩
    rw [getElem?_ofCalls] at hkey
    split at hkey
    · cases hkey
    · next hcalls =>
      cases hkey
      obtain ⟨k, hk⟩ := List.exists_mem_of_ne_nil _ hcalls
      exact h _ (mem_onField.mp hk) hhash

end

section Accepting

open Constraint

lemma castInt64_unlimited : castInt64 UNLIMITED = none := by
  decide +kernel

lemma fieldNumber_of_castInt64 {text : Str} {n : Int} (h : castInt64 text = some n) : fieldNumber text = some n := by
  unfold fieldNumber
  split_ifs with hempty
  · rw [List.isEmpty_iff.mp hempty] at h
    cases h
  · exact h

lemma digitsToNat_zero {digits : Str} (h : digitsToNat digits ≠ none) :
    digitsToNat ('0' :: digits) = digitsToNat digits := by
  unfold digitsToNat at h ⊢
  split at h
  · exact absurd rfl h
  · next hdigits =>
    have hall : digits.all Char.isDigit = true := by
      by_contra hno
      exact hdigits (by simp [hno])
    rw [if_neg hdigits, if_neg (by simp [hall])]
    rfl

lemma exists_ne_of_castSigned {text : Str} {n : Int} (h : castSigned text = some n) :
    ∃ text' ≠ text, castSigned text' = some n := by
  unfold castSigned at h
  split at h
  case h_1 digits =>
    refine ⟨'-' :: '0' :: digits, by simp, ?_⟩
    simp only [castSigned]
    rw [digitsToNat_zero fun hnone => by simp [hnone] at h]
    exact h
  case h_2 digits =>
    refine ⟨'+' :: '0' :: digits, by simp, ?_⟩
    simp only [castSigned]
    rw [digitsToNat_zero fun hnone => by simp [hnone] at h]
    exact h
  case h_3 =>
    refine ⟨'0' :: text, by simp, ?_⟩
    change Option.map Int.ofNat (digitsToNat ('0' :: text)) = some n
    rw [digitsToNat_zero fun hnone => by simp [hnone] at h]
    exact h

/-- A number has more than one text. -/
lemma exists_ne_of_castInt64 {text : Str} {n : Int} (h : castInt64 text = some n) :
    ∃ text' ≠ text, fieldNumber text' = some n := by
  obtain ⟨hsigned, hrange⟩ := filter_eq_some_iff.mp h
  obtain ⟨text', hne, hsame⟩ := exists_ne_of_castSigned hsigned
  exact ⟨text', hne, fieldNumber_of_castInt64 (filter_eq_some_iff.mpr ⟨hsame, hrange⟩)⟩

variable {bound value : Str} {calls : List Constraint} {k : Constraint}

lemma endAccepts_iff {inside : Int → Int → Bool} : endAccepts bound value inside = true ↔
    bound = UNLIMITED ∨ Within bound value fun lhs rhs => inside lhs rhs = true := by
  unfold endAccepts Within
  cases castInt64 bound <;> cases fieldNumber value <;> simp

lemma not_within_unlimited {inside : Int → Int → Prop} : ¬Within UNLIMITED value inside := by
  rintro ⟨lhs, -, hlhs, -⟩
  cases castInt64_unlimited.symm.trans hlhs

lemma length_le_ends (calls : List Constraint) :
    calls.length ≤ (calls.filterMap left).length + (calls.filterMap right).length := by
  induction calls with
  | nil => exact le_rfl
  | cons k calls ih => cases k <;> simp [List.filterMap_cons, left, right] <;> omega

/-- At most one constraint at each end: one constraint, or a lower and an upper bound in either order. -/
lemma Constraint.OneEach.eq (hone : OneEach calls) : calls = [] ∨ (∃ k, calls = [k]) ∨
    ∃ k k', k.right = none ∧ k'.left = none ∧ (calls = [k, k'] ∨ calls = [k', k]) := by
  unfold OneEach at hone
  match calls with
  | [] => exact .inl rfl
  | [k] => exact .inr (.inl ⟨k, rfl⟩)
  | [k, k'] =>
    right
    right
    cases k <;> cases k' <;> simp [left, right] at hone <;>
      first | exact ⟨_, _, rfl, rfl, .inl rfl⟩ | exact ⟨_, _, rfl, rfl, .inr rfl⟩
  | k :: k' :: k'' :: calls =>
    have hlength := length_le_ends (k :: k' :: k'' :: calls)
    rw [List.length_cons, List.length_cons, List.length_cons] at hlength
    omega

lemma accepts_equal : Range.accepts ⟨(true, bound), (true, bound)⟩ value = true ↔ bound = value := by
  unfold Range.accepts
  rw [if_pos (by simp)]
  exact decide_eq_true_iff

lemma accepts_other : Range.accepts ⟨(false, bound), (false, bound)⟩ value = true ↔ bound ≠ value := by
  unfold Range.accepts
  rw [if_neg (by simp), if_pos (by simp)]
  exact decide_eq_true_iff

/-- Each constraint counts unless it is taken for a missing one; that on its own, with a strict comparison, is read as a
constraint on the text. -/
lemma accepts_iff (hone : OneEach calls) (hseparate : Separate calls) (hne : calls ≠ []) :
    (range calls).accepts value = true ↔ (∀ k ∈ calls, k.Unlimited ∨ k.Matches value) ∧
      (calls = [.GT UNLIMITED] ∨ calls = [.LT UNLIMITED] → value ≠ UNLIMITED) := by
  rcases hone.eq with rfl | ⟨k, rfl⟩ | ⟨k, k', hk, hk', rfl | rfl⟩
  · exact absurd rfl hne
  · cases k with
    | EQ =>
      refine accepts_equal.trans ?_
      simp [Unlimited, Matches]
    | NE =>
      refine accepts_other.trans ?_
      simp [Unlimited, Matches]
    | GT bound | LT bound =>
      by_cases hbound : bound = UNLIMITED <;>
        simp [range, left, right, Range.accepts, Unlimited, Matches, endAccepts_iff, hbound, eq_comm (a := UNLIMITED)]
    | GE bound | LE bound =>
      by_cases hbound : bound = UNLIMITED <;>
        simp [range, left, right, Range.accepts, Unlimited, Matches, endAccepts_iff, hbound]
  all_goals
    have hends := hseparate k (by simp) k' (by simp)
    cases k <;> cases hk <;> cases k' <;> cases hk' <;>
      simp_all [range, left, right, Range.accepts, Unlimited, Matches, endAccepts_iff, And.comm]

/-- A lower and an upper bound that coincide are read as one constraint on the text. -/
lemma eq_of_not_separate (hone : OneEach calls) (h : ¬Separate calls) :
    ∃ bound, (calls.Perm [.GT bound, .LT bound] ∧ ∀ value, (range calls).accepts value = true ↔ bound ≠ value) ∨
      calls.Perm [.GE bound, .LE bound] ∧ ∀ value, (range calls).accepts value = true ↔ bound = value := by
  unfold Separate at h
  rcases hone.eq with rfl | ⟨k, rfl⟩ | ⟨k, k', hk, hk', rfl | rfl⟩
  · simp at h
  · simp at h
  · cases k <;> cases hk <;> cases k' <;> cases hk' <;> simp [left, right] at h <;> subst h
    · exact ⟨_, .inl ⟨.refl _, fun _ => accepts_other⟩⟩
    · exact ⟨_, .inr ⟨.refl _, fun _ => accepts_equal⟩⟩
  · cases k <;> cases hk <;> cases k' <;> cases hk' <;> simp [left, right] at h <;> subst h
    · exact ⟨_, .inl ⟨.swap .., fun _ => accepts_other⟩⟩
    · exact ⟨_, .inr ⟨.swap .., fun _ => accepts_equal⟩⟩

lemma not_matches_of_unlimited (h : k.Unlimited) : ¬k.Matches value := by
  cases k with
  | EQ | NE => exact h.elim
  | GT | GE | LT | LE =>
    cases h
    exact not_within_unlimited

lemma compares_of_within {inside : Int → Int → Prop} (h : bound = UNLIMITED ∨ Within bound value inside) :
    Compares bound value inside := by
  intro lhs hlhs
  rcases h with rfl | ⟨lhs', rhs, hlhs', hrhs, hinside⟩
  · cases castInt64_unlimited.symm.trans hlhs
  · cases hlhs.symm.trans hlhs'
    exact ⟨rhs, hrhs, hinside⟩

lemma holds_of_matches (h : k.Unlimited ∨ k.Matches value) : k.Holds value := by
  cases k with
  | EQ => exact (h.resolve_left id).symm
  | NE => exact Ne.symm (h.resolve_left id)
  | GT | GE | LT | LE => exact compares_of_within h

lemma compares_self {inside : Int → Int → Prop} (h : ∀ n, inside n n) : Compares bound bound inside :=
  fun lhs hlhs => ⟨lhs, fieldNumber_of_castInt64 hlhs, h lhs⟩

lemma compares_of_not_number {inside : Int → Int → Prop} (h : ¬(castInt64 bound).isSome) : Compares bound value inside :=
  fun lhs hlhs => absurd (by rw [hlhs]; rfl) h

lemma holds_of_accepts (hone : OneEach calls) (hcollide : ¬Collide calls) (h : (range calls).accepts value = true)
    (hk : k ∈ calls) : k.Holds value := by
  by_cases hseparate : Separate calls
  · exact holds_of_matches (((accepts_iff hone hseparate (List.ne_nil_of_mem hk)).mp h).1 k hk)
  obtain ⟨bound, ⟨hperm, -⟩ | ⟨hperm, haccepts⟩⟩ := eq_of_not_separate hone hseparate
  · -- the two strict comparisons are with a text that is no number
    have hnumber : ¬(castInt64 bound).isSome := fun hsome =>
      hcollide ⟨bound, hperm.mem_iff.mpr (by simp), hperm.mem_iff.mpr (by simp), hsome⟩
    have hk := hperm.mem_iff.mp hk
    simp only [List.mem_cons, List.not_mem_nil, or_false] at hk
    rcases hk with rfl | rfl <;> exact compares_of_not_number hnumber
  · obtain rfl := (haccepts value).mp h
    have hk := hperm.mem_iff.mp hk
    simp only [List.mem_cons, List.not_mem_nil, or_false] at hk
    rcases hk with rfl | rfl <;> exact compares_self fun _ => le_rfl

/-- Above and below one number is read as another text than the number, which a text that is no number is. -/
lemma accepts_of_collide (hone : OneEach calls) (h : Collide calls) :
    ∃ k ∈ calls, ¬k.Holds "x".toList ∧ (range calls).accepts "x".toList = true := by
  obtain ⟨bound, hgt, hlt, hnumber⟩ := h
  have htext : bound ≠ "x".toList := by
    rintro rfl
    exact absurd hnumber (by decide +kernel)
  have hseparate : ¬Separate calls := fun h => by cases h _ hgt _ hlt rfl (by simp [left])
  refine ⟨.GT bound, hgt, fun hholds => ?_, ?_⟩
  · obtain ⟨lhs, hlhs⟩ := isSome_iff_exists.mp hnumber
    obtain ⟨rhs, hrhs, -⟩ := hholds lhs hlhs
    cases hrhs
  · obtain ⟨bound', ⟨hperm, haccepts⟩ | ⟨hperm, -⟩⟩ := eq_of_not_separate hone hseparate
    · have hmem := hperm.mem_iff.mp hgt
      simp only [List.mem_cons, Constraint.GT.injEq, reduceCtorEq, List.not_mem_nil, or_false] at hmem
      exact (haccepts _).mpr (hmem ▸ htext)
    · simpa using hperm.mem_iff.mp hgt

/-- A condition refuses the rows of which a constraint does not hold, however many calls put constraints on other
fields. -/
theorem rejects_iff {field : Str} (hhash : isHashField field = true) (hone : OneEach calls) :
    (∀ placed, onField field placed = calls → ∀ (r : Row), ∀ k ∈ calls,
      ¬k.Holds (r.getField field) → (ofCalls placed).process r = false) ↔ ¬Collide calls := by
  constructor
  · intro h hcollide
    obtain ⟨k, hk, hno, haccepts⟩ := accepts_of_collide hone hcollide
    let placed := calls.map fun k => (field, k)
    have hon : onField field placed = calls := by simp [onField, placed, List.filter_map, Function.comp_def]
    let r : Row := { fields := (∅ : FieldMap).insert field "x".toList }
    have hvalue : r.fields[field]? = some "x".toList := getElem?_insert_self
    have hget : r.getField field = "x".toList := getD_insert_self
    have hprocess : (ofCalls placed).process r = true := by
      refine (process_ofCalls ⟨rfl, rfl⟩).mpr fun p hp _ => ⟨"x".toList, ?_⟩
      obtain ⟨k', -, rfl⟩ := List.mem_map.mp hp
      exact ⟨hvalue, hon.symm ▸ haccepts⟩
    rw [h placed hon r k hk (hget ▸ hno)] at hprocess
    cases hprocess
  · rintro hcollide placed rfl r k hk hno
    by_contra hprocess
    have hprocess := Bool.eq_true_of_not_eq_false hprocess
    obtain ⟨value, hvalue, haccepts⟩ := (process_ofCalls (not_deleted_of_process _ hprocess)).mp hprocess
      (field, k) (mem_onField.mp hk) hhash
    have hget : r.getField field = value := by
      unfold Row.getField
      rw [getD_eq_getD_getElem?, hvalue]
      rfl
    exact hno (hget ▸ holds_of_accepts hone hcollide haccepts hk)

lemma exists_accepts (hone : OneEach calls) (hne : calls ≠ []) (h : ¬Unsatisfiable calls) :
    ∃ value, (range calls).accepts value = true := by
  by_cases hseparate : Separate calls
  · have hmeets : ∃ value, ∀ k ∈ calls, k.Unlimited ∨ k.Matches value := by
      by_contra hno
      refine h ⟨hseparate, fun value => ?_⟩
      by_contra hall
      refine hno ⟨value, fun k hk => or_iff_not_imp_left.mpr fun hlimited => ?_⟩
      by_contra hmatch
      exact hall ⟨k, hk, hlimited, hmatch⟩
    obtain ⟨value, hvalue⟩ := hmeets
    by_cases hsingle : calls = [.GT UNLIMITED] ∨ calls = [.LT UNLIMITED]
    · refine ⟨[], (accepts_iff hone hseparate hne).mpr ⟨?_, fun _ => by decide⟩⟩
      rcases hsingle with rfl | rfl <;> simp [Unlimited]
    · exact ⟨value, (accepts_iff hone hseparate hne).mpr ⟨hvalue, fun h => absurd h hsingle⟩⟩
  · obtain ⟨bound, ⟨-, haccepts⟩ | ⟨-, haccepts⟩⟩ := eq_of_not_separate hone hseparate
    · exact ⟨'x' :: bound, (haccepts _).mpr (by simp)⟩
    · exact ⟨bound, (haccepts _).mpr rfl⟩

lemma exists_fields (names : List Str) (pick : Str → Str) : ∃ m : FieldMap, ∀ f ∈ names, m[f]? = some (pick f) := by
  induction names with
  | nil => exact ⟨∅, by simp⟩
  | cons f names ih =>
    obtain ⟨m, hm⟩ := ih
    refine ⟨m.insert f (pick f), fun f' hf' => ?_⟩
    rw [getElem?_insert]
    split
    case isTrue heq => rw [Std.LawfulEqCmp.compare_eq_iff_eq.mp heq]
    case isFalse hne =>
      refine hm f' ((List.mem_cons.mp hf').resolve_left ?_)
      rintro rfl
      exact hne (Std.LawfulEqCmp.compare_eq_iff_eq.mpr rfl)

/-- All constraints of the condition match. -/
def MatchesAll (placed : List (Str × Constraint)) (r : Row) : Prop :=
  ∀ p ∈ placed, ∃ value, r.fields[p.1]? = some value ∧ p.2.Matches value

variable {placed : List (Str × Constraint)}

lemma process_of_apart (hone : ∀ p ∈ placed, OneEach (onField p.1 placed))
    (hfields : ∀ p ∈ placed, isHashField p.1 = true ∧ Constraint.Apart (onField p.1 placed)) {r : Row}
    (hlive : r.status = .normal ∧ r.deleted = false) : (ofCalls placed).process r = true ↔ MatchesAll placed r := by
  have haccepts {p : Str × Constraint} (hp : p ∈ placed) (value : Str) :
      (range (onField p.1 placed)).accepts value = true ↔ ∀ k ∈ onField p.1 placed, k.Matches value := by
    obtain ⟨hlimited, hseparate⟩ := (hfields p hp).2
    rw [accepts_iff (hone p hp) hseparate (List.ne_nil_of_mem (mem_onField.mpr hp))]
    constructor
    · exact fun h k hk => (h.1 k hk).resolve_left (hlimited k hk)
    · refine fun h => ⟨fun k hk => .inr (h k hk), ?_⟩
      rintro (hsingle | hsingle) <;>
      · rw [hsingle] at hlimited
        exact absurd rfl (hlimited _ (List.mem_singleton_self _))
  rw [process_ofCalls hlive]
  constructor
  · intro h p hp
    obtain ⟨value, hvalue, hin⟩ := h p hp (hfields p hp).1
    exact ⟨value, hvalue, (haccepts hp value).mp hin p.2 (mem_onField.mpr hp)⟩
  · intro h p hp _
    obtain ⟨value, hvalue, -⟩ := h p hp
    refine ⟨value, hvalue, (haccepts hp value).mpr fun k hk => ?_⟩
    obtain ⟨value', hvalue', hmatches⟩ := h _ (mem_onField.mp hk)
    cases hvalue.symm.trans hvalue'
    exact hmatches

/-- Where a field is misread and every field that counts has a value in its range, some row is judged wrongly. -/
lemma exists_misjudged (hone : ∀ p ∈ placed, OneEach (onField p.1 placed)) {p₀ : Str × Constraint}
    (hp₀ : p₀ ∈ placed)
    (hbad : ¬(isHashField p₀.1 = true ∧ Constraint.Apart (onField p₀.1 placed)))
    (hsat : ∀ p ∈ placed, isHashField p.1 = true → ¬Unsatisfiable (onField p.1 placed)) :
    ∃ m : FieldMap, ¬((ofCalls placed).process { fields := m } = true ↔ MatchesAll placed { fields := m }) := by
  by_contra hall
  simp only [not_exists, not_not] at hall
  have hvalue : ∀ field, ∃ value, ∀ k, (field, k) ∈ placed → isHashField field = true →
      (range (onField field placed)).accepts value = true := by
    intro field
    by_cases hfield : ∃ k, (field, k) ∈ placed ∧ isHashField field = true
    · obtain ⟨k, hk, hhash⟩ := hfield
      obtain ⟨value, hvalue⟩ := exists_accepts (hone _ hk) (List.ne_nil_of_mem (mem_onField.mpr hk)) (hsat _ hk hhash)
      exact ⟨value, fun _ _ _ => hvalue⟩
    · exact ⟨[], fun k hk hhash => absurd ⟨k, hk, hhash⟩ hfield⟩
  choose pick hpick using hvalue
  obtain ⟨m, hm⟩ := exists_fields (placed.map Prod.fst) pick
  -- every field has a value in its range, so the row is taken
  have hmatch : ∀ p ∈ placed, p.2.Matches (pick p.1) := by
    intro p hp
    have htaken : (ofCalls placed).process { fields := m } = true := (process_ofCalls ⟨rfl, rfl⟩).mpr fun p hp hhash =>
      ⟨pick p.1, hm _ (List.mem_map_of_mem hp), hpick p.1 p.2 hp hhash⟩
    obtain ⟨value, hvalue, hmatches⟩ := (hall m).mp htaken p hp
    cases (hm _ (List.mem_map_of_mem hp)).symm.trans hvalue
    exact hmatches
  by_cases hhash : isHashField p₀.1 = true
  · have hmisread : ¬Constraint.Apart (onField p₀.1 placed) := fun h => hbad ⟨hhash, h⟩
    by_cases hseparate : Separate (onField p₀.1 placed)
    · obtain ⟨k, hk, hlimited⟩ : ∃ k ∈ onField p₀.1 placed, k.Unlimited := by
        by_contra hno
        exact hmisread ⟨fun k hk hlimited => hno ⟨k, hk, hlimited⟩, hseparate⟩
      exact not_matches_of_unlimited hlimited (hmatch _ (mem_onField.mp hk))
    obtain ⟨bound, ⟨hperm, -⟩ | ⟨hperm, haccepts⟩⟩ := eq_of_not_separate (hone p₀ hp₀) hseparate
    · obtain ⟨lhs, rhs, hlhs, hrhs, hlt⟩ := hmatch _ (mem_onField.mp (hperm.mem_iff.mpr (List.mem_cons_self ..)))
      obtain ⟨lhs', rhs', hlhs', hrhs', hgt⟩ := hmatch (p₀.1, .LT bound) (mem_onField.mp (hperm.mem_iff.mpr (by simp)))
      cases hlhs.symm.trans hlhs'
      cases hrhs.symm.trans hrhs'
      exact lt_asymm hlt hgt
    · -- another text of the same number meets both bounds and is refused
      obtain ⟨n, -, hn, -⟩ := hmatch (p₀.1, .GE bound) (mem_onField.mp (hperm.mem_iff.mpr (by simp)))
      obtain ⟨text, hne, htext⟩ := exists_ne_of_castInt64 hn
      have hmatches : MatchesAll placed { fields := m.insert p₀.1 text } := by
        intro p hp
        by_cases hfield : p₀.1 = p.1
        · refine ⟨text, by rw [hfield]; exact getElem?_insert_self, ?_⟩
          have hk := hperm.mem_iff.mp (mem_onField.mpr (show (p₀.1, p.2) ∈ placed from hfield ▸ hp))
          simp only [List.mem_cons, List.not_mem_nil, or_false] at hk
          rcases hk with hk | hk <;> rw [hk] <;> exact ⟨n, n, hn, htext, le_rfl⟩
        · exact ⟨pick p.1, (OrderedMap.getElem?_insert_of_ne hfield).trans (hm _ (List.mem_map_of_mem hp)), hmatch p hp⟩
      obtain ⟨value, hvalue, hin⟩ := (process_ofCalls ⟨rfl, rfl⟩).mp ((hall _).mpr hmatches) p₀ hp₀ hhash
      cases getElem?_insert_self.symm.trans hvalue
      exact hne ((haccepts _).mp hin).symm
  · -- the field is not looked at
    have htaken : (ofCalls placed).process { fields := m.erase p₀.1 } = true := by
      refine (process_ofCalls ⟨rfl, rfl⟩).mpr fun p hp hcounts => ⟨pick p.1, ?_, hpick p.1 p.2 hp hcounts⟩
      have hfield : compare p₀.1 p.1 ≠ .eq := fun h => hhash (Std.LawfulEqCmp.compare_eq_iff_eq.mp h ▸ hcounts)
      rw [getElem?_erase, if_neg hfield]
      exact hm _ (List.mem_map_of_mem hp)
    obtain ⟨value, hvalue, -⟩ := (hall _).mp htaken p₀ hp₀
    cases getElem?_erase_self.symm.trans hvalue

def scoreRow : Row :=
  { fields := (∅ : FieldMap).insert "score".toList "7".toList }

def scoreBetween (lower upper : String) : List (Str × Constraint) :=
  [("score".toList, .GT lower.toList), ("score".toList, .LT upper.toList)]

end Accepting

lemma isHashField_iff {name : Str} (h : FieldName name) : isHashField name = true ↔ name.getLast? ≠ some '_' := by
  unfold isHashField
  simp [h.nonempty, h.head]

namespace TableFactoryPrecompiled

def sampleCreate (valueFiled : String) : Except TableException (Opened × MemoryTableFactory2) :=
  createTable .noRows 1 {} true "o".toList "s".toList "t".toList "id".toList valueFiled.toList

def createdTable : Except TableException (Opened × MemoryTableFactory2) → Option MemoryTable2
  | .ok (.table t, _) => some t
  | _ => none

lemma exists_of_createdTable {x : Except TableException (Opened × MemoryTableFactory2)}
    (h : (createdTable x).isSome) : ∃ t f, x = .ok (.table t, f) := by
  match x, h with
  | .ok (.table t, f), _ => exact ⟨t, f, rfl⟩

def sampleCalls : List Constraint :=
  [.GT "3".toList, .LT "9".toList]

lemma not_collide_sampleCalls : ¬Constraint.Collide sampleCalls := by
  rintro ⟨bound, hgt, hlt, -⟩
  simp only [sampleCalls, List.mem_cons, Constraint.GT.injEq, Constraint.LT.injEq, reduceCtorEq, List.not_mem_nil,
    or_false, false_or] at hgt hlt
  exact absurd (hgt.symm.trans hlt) (by decide)

end TableFactoryPrecompiled

end FiscoBcos
