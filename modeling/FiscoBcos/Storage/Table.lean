import Mathlib.Algebra.GroupWithZero.Nat
import Mathlib.Data.Char
import Mathlib.Data.List.Lex
import Mathlib.Data.Prod.Lex
import FiscoBcos.Lib.OrderedMap

/-!
# Rows and conditions

`libstorage/Table.cpp`. A text is a list of characters, compared as `std::string` compares. The counters of a row that
repeat the sizes of its fields are computed from the fields.
-/

namespace FiscoBcos

open List Std.ExtTreeMap

abbrev Str := List Char

instance : LawfulBEq Str := inferInstance

abbrev FieldMap := Std.ExtTreeMap Str Str

def ID_FIELD : Str := "_id_".toList

def NUM_FIELD : Str := "_num_".toList

def STATUS : Str := "_status_".toList

def isHashField (key : Str) : Bool :=
  !key.isEmpty && key.head? != some '_' && key.getLast? != some '_'

inductive Status where
  | normal
  | deleted
deriving DecidableEq

def Status.toNat : Status → Nat
  | .normal => 0
  | .deleted => 1

/-- What a row of a table is besides its number. `deleted` is set when the insertion of the row is rolled back. -/
structure Row where
  status : Status := .normal
  deleted : Bool := false
  fields : FieldMap := ∅
deriving DecidableEq

/-- A row with its number, which is 0 until the row is written to the database. -/
structure Entry extends Row where
  id : Nat := 0
deriving DecidableEq

namespace Row

def getField (key : Str) (r : Row) : Str :=
  r.fields.getD key []

def setField (key value : Str) (r : Row) : Row :=
  { r with fields := r.fields.insert key value }

def setStatus (status : Status) (r : Row) : Row :=
  { r with status := status }

def setDeleted (deleted : Bool) (r : Row) : Row :=
  { r with deleted := deleted }

def setFields (fields : List (Str × Str)) (r : Row) : Row :=
  fields.foldl (fun r f => r.setField f.1 f.2) r

def hashFields (r : Row) : List (Str × Str) :=
  r.fields.toList.filter fun f => isHashField f.1

def capacityOfHashField (r : Row) : Nat :=
  (r.hashFields.map fun f => f.1.length + f.2.length).sum

section

variable {fields : List (Str × Str)} {row : Row} {k : Str}

lemma setFields_cons (f : Str × Str) (fields : List (Str × Str)) (row : Row) :
    row.setFields (f :: fields) = (row.setField f.1 f.2).setFields fields :=
  rfl

lemma status_setFields : (row.setFields fields).status = row.status ∧ (row.setFields fields).deleted = row.deleted := by
  induction fields generalizing row with
  | nil => exact ⟨rfl, rfl⟩
  | cons f fields ih => exact ih

lemma getElem?_setFields_of_notMem (hk : k ∉ fields.map Prod.fst) :
    (row.setFields fields).fields[k]? = row.fields[k]? := by
  induction fields generalizing row with
  | nil => rfl
  | cons f fields ih =>
    rw [map_cons, mem_cons, not_or] at hk
    rw [setFields_cons, ih hk.2]
    change (row.fields.insert f.1 f.2)[k]? = _
    exact OrderedMap.getElem?_insert_of_ne (Ne.symm hk.1)

lemma getElem?_setFields {v : Str} (hv : ∀ f ∈ fields, f.1 = k → f.2 = v) (hk : k ∈ fields.map Prod.fst) :
    (row.setFields fields).fields[k]? = some v := by
  induction fields generalizing row with
  | nil => exact absurd hk not_mem_nil
  | cons f fields ih =>
    rw [setFields_cons]
    by_cases htail : k ∈ fields.map Prod.fst
    · exact ih (fun g hg => hv g (mem_cons_of_mem _ hg)) htail
    rw [map_cons, mem_cons, or_iff_left htail] at hk
    rw [getElem?_setFields_of_notMem htail]
    change (row.fields.insert f.1 f.2)[k]? = _
    rw [Std.ExtTreeMap.getElem?_insert, if_pos (Std.LawfulEqCmp.compare_eq_iff_eq.mpr hk.symm),
      hv f mem_cons_self hk.symm]

end

end Row

structure TableInfo where
  name : Str
  key : Str
  fields : List Str
  authorizedAddress : List Str := []
  enableConsensus : Bool := true
  enableCache : Bool := true
deriving DecidableEq

structure AccessOptions where
  origin : Str := []
  check : Bool := true
deriving DecidableEq

namespace EntryLessNoLock

def fieldsLess : List (Str × Str) → List (Str × Str) → Bool
  | l :: ls, r :: rs =>
    if l.1 ≠ r.1 then l.1 < r.1
    else if l.2 ≠ r.2 then l.2 < r.2
    else fieldsLess ls rs
  | _, _ => false

def less (info : TableInfo) (lhs rhs : Entry) : Bool :=
  if lhs.id ≠ rhs.id then lhs.id < rhs.id
  else if lhs.getField info.key ≠ rhs.getField info.key then
    lhs.getField info.key < rhs.getField info.key
  else if lhs.fields.size ≠ rhs.fields.size then lhs.fields.size < rhs.fields.size
  else fieldsLess lhs.fields.toList rhs.fields.toList

end EntryLessNoLock

def digitsToNat (digits : Str) : Option Nat :=
  if digits.isEmpty || !digits.all Char.isDigit then none
  else some (digits.foldl (fun n c => 10 * n + (c.toNat - '0'.toNat)) 0)

def castSigned : Str → Option Int
  | '-' :: digits => (digitsToNat digits).map fun n => -(n : Int)
  | '+' :: digits => (digitsToNat digits).map Int.ofNat
  | digits => (digitsToNat digits).map Int.ofNat

def castInt64 (text : Str) : Option Int :=
  (castSigned text).filter fun n => decide (-9223372036854775808 ≤ n ∧ n ≤ 9223372036854775807)

/-- Both ends of a range, with whether the end itself belongs to it. -/
structure Condition.Range where
  left : Bool × Str
  right : Bool × Str
deriving DecidableEq

/-- An offset or count below 0 is no limit. -/
structure Condition where
  offset : Int := -1
  count : Int := -1
  conditions : Std.ExtTreeMap Str Condition.Range := ∅

namespace Condition

def UNLIMITED : Str := "_VALUE_UNLIMITED_".toList

variable (c : Condition) (key value : Str)

def EQ : Condition :=
  { c with conditions := c.conditions.insert key ⟨(true, value), (true, value)⟩ }

def NE : Condition :=
  { c with conditions := c.conditions.insert key ⟨(false, value), (false, value)⟩ }

def setLeft (left : Bool × Str) : Condition :=
  { c with conditions := c.conditions.alter key fun
    | some range => some { range with left := left }
    | none => some ⟨left, (false, UNLIMITED)⟩ }

def setRight (right : Bool × Str) : Condition :=
  { c with conditions := c.conditions.alter key fun
    | some range => some { range with right := right }
    | none => some ⟨(false, UNLIMITED), right⟩ }

def GT : Condition :=
  c.setLeft key (false, value)

def GE : Condition :=
  c.setLeft key (true, value)

def LT : Condition :=
  c.setRight key (false, value)

def LE : Condition :=
  c.setRight key (true, value)

def limit (offset count : Int) : Condition :=
  { c with offset := offset, count := count }

def getOffset : Int :=
  c.offset.bmod 4294967296

def getCount : Int :=
  c.count.bmod 4294967296

def limited : Bool :=
  0 ≤ c.getOffset && 0 ≤ c.getCount

def fieldNumber : Option Int :=
  if value.isEmpty then some 0 else castInt64 value

/-- One end of a range. A text that is no number makes an exception, and the row is not taken. -/
def endAccepts (bound : Str) (value : Str) (inside : Int → Int → Bool) : Bool :=
  bound == UNLIMITED ||
    match castInt64 bound, fieldNumber value with
    | some lhs, some rhs => inside lhs rhs
    | _, _ => false

def Range.accepts (range : Range) (value : Str) : Bool :=
  if range.left.2 = range.right.2 ∧ range.left.1 ∧ range.right.1 then range.left.2 = value
  else if range.left.2 = range.right.2 ∧ !range.left.1 ∧ !range.right.1 then range.left.2 ≠ value
  else
    endAccepts range.left.2 value (fun lhs rhs => if range.left.1 then lhs ≤ rhs else lhs < rhs) &&
      endAccepts range.right.2 value (fun lhs rhs => if range.right.1 then rhs ≤ lhs else rhs < lhs)

def process (r : Row) : Bool :=
  r.status != .deleted && !r.deleted && c.conditions.toList.all fun it =>
    !isHashField it.1 || match r.fields[it.1]? with
      | some value => it.2.accepts value
      | none => false

lemma not_deleted_of_process {r : Row} (h : c.process r = true) : r.status = .normal ∧ r.deleted = false := by
  simp only [process, Bool.and_eq_true, bne_iff_ne, Bool.not_eq_true'] at h
  refine ⟨?_, h.1.2⟩
  cases hs : r.status with
  | normal => rfl
  | deleted => exact absurd hs h.1.1

lemma process_iff {r : Row} : c.process r = true ↔
    r.status = .normal ∧ r.deleted = false ∧ ∀ key range, c.conditions[key]? = some range →
      isHashField key = true → ∃ value, r.fields[key]? = some value ∧ range.accepts value = true := by
  have hstatus : (r.status != .deleted) = true ↔ r.status = .normal := by
    cases r.status <;> simp
  simp only [process, Bool.and_eq_true, Bool.not_eq_true', hstatus, all_eq_true, and_assoc]
  apply and_congr_right
  intro _
  apply and_congr_right
  intro _
  constructor
  · intro h key range hc hhash
    have hrange := h (key, range) (mem_toList_iff_getElem?_eq_some.mpr hc)
    rw [hhash] at hrange
    cases hv : r.fields[key]? with
    | none => simp [hv] at hrange
    | some value => exact ⟨value, rfl, by simpa [hv] using hrange⟩
  · rintro h ⟨key, range⟩ hmem
    cases hhash : isHashField key with
    | false => simp
    | true =>
      obtain ⟨value, hv, haccepts⟩ := h key range (mem_toList_iff_getElem?_eq_some.mp hmem) hhash
      simp [hv, haccepts]

lemma process_EQ {r : Row} {key value : Str} (hr : r.fields[key]? = some value)
    (hc : ∀ range ∈ c.conditions[key]?, range.accepts value = true) : (c.EQ key value).process r = c.process r := by
  rw [Bool.eq_iff_iff, process_iff, process_iff]
  apply and_congr_right
  intro _
  apply and_congr_right
  intro _
  have hget : ∀ k, (c.EQ key value).conditions[k]? =
      if k = key then some ⟨(true, value), (true, value)⟩ else c.conditions[k]? := by
    intro k
    simp only [EQ, Std.ExtTreeMap.getElem?_insert, Std.LawfulEqCmp.compare_eq_iff_eq, eq_comm (a := k)]
  constructor
  · intro h k range hrange hhash
    by_cases hk : k = key
    · subst hk
      exact ⟨value, hr, hc range hrange⟩
    · exact h k range ((hget k).trans ((if_neg hk).trans hrange)) hhash
  · intro h k range hrange hhash
    rw [hget] at hrange
    split at hrange
    case isTrue hk =>
      cases hrange
      exact ⟨value, hk ▸ hr, by simp [Range.accepts]⟩
    case isFalse => exact h k range hrange hhash

end Condition

end FiscoBcos
