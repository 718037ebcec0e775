import Mathlib.Data.List.DropRight
import FiscoBcos.Lib.Except
import FiscoBcos.Storage.OpenTable

/-!
# The contract that creates tables

`TableFactoryPrecompiled::call` for `createTable(string,string,string)`, with `checkNameValidate`, which says
what names tables and fields may have, at version 2.3.0 and later.
-/

namespace FiscoBcos

open List

variable {u : Unit} {names : List Str} {tableName keyField name : Str}

inductive TableException where
  | storage (errorCode : Int) (what : Str)
  | precompiled (what : Str)
deriving DecidableEq

def require (condition : Bool) (e : TableException) : Except TableException Unit :=
  if condition then .ok () else .error e

lemma require_eq_ok {condition : Bool} {e : TableException} : require condition e = .ok u ↔ condition = true := by
  cases condition <;> simp [require]

def isSpace (c : Char) : Bool :=
  c = ' ' || (9 ≤ c.toNat && c.toNat ≤ 13)

def trim (s : Str) : Str :=
  (s.dropWhile isSpace).rdropWhile isSpace

section

def CODE_TABLE_NAME_LENGTH_OVERFLOW : Int := -50002

def CODE_TABLE_FILED_LENGTH_OVERFLOW : Int := -50003

def CODE_TABLE_FILED_TOTALLENGTH_OVERFLOW : Int := -50004

def CODE_TABLE_DUMPLICATE_FIELD : Int := -50007

def CODE_TABLE_INVALIDATE_FIELD : Int := -50008

def SYS_TABLE_KEY_FIELD_NAME_MAX_LENGTH : Nat := 64

def SYS_TABLE_VALUE_FIELD_MAX_LENGTH : Nat := 1024

def USER_TABLE_NAME_MAX_LENGTH : Nat := 64

def USER_TABLE_NAME_MAX_LENGTH_S : Nat := 50

def allowChar : List Char :=
  ['$', '_', '@']

def isNameChar (c : Char) : Bool :=
  c.isAlphanum || allowChar.contains c

variable (throwStorageException : Bool)

def nameException (errorCode : Int) (what : Str) : TableException :=
  if throwStorageException then .storage errorCode what else .precompiled what

def checkTableNameValidate (tableName : Str) : Except TableException Unit :=
  require (tableName.all isNameChar)
    (nameException throwStorageException CODE_TABLE_INVALIDATE_FIELD ("invalid tablename:".toList ++ tableName))

def checkFieldNameValidate (fieldName : Str) : Except TableException Unit := do
  let invalid := nameException throwStorageException CODE_TABLE_INVALIDATE_FIELD ("invalid field:".toList ++ fieldName)
  require (!fieldName.isEmpty && fieldName.head? != some '_') invalid
  require (fieldName.all isNameChar) invalid

def checkValueFields (valueFieldSet : List Str) : List Str → Except TableException Unit
  | [] => .ok ()
  | valueField :: valueFieldList => do
    require (!valueFieldSet.contains valueField) (nameException throwStorageException CODE_TABLE_DUMPLICATE_FIELD
        ("dumplicate field:".toList ++ valueField))
    checkFieldNameValidate throwStorageException valueField
    checkValueFields (valueField :: valueFieldSet) valueFieldList

def checkNameValidate (tableName keyField : Str) (valueFieldList : List Str) : Except TableException Str := do
  let keyField := trim keyField
  checkTableNameValidate throwStorageException tableName
  checkFieldNameValidate throwStorageException keyField
  checkValueFields throwStorageException [keyField] valueFieldList
  return keyField

end

def getTableName (tableName : Str) : Str :=
  "u_".toList ++ tableName

namespace TableFactoryPrecompiled

def fieldNameList (valueFiled : Str) : List Str :=
  (valueFiled.splitOn ',').map trim

def checkFieldLength (name : Str) : Except TableException Unit :=
  require (name.length ≤ SYS_TABLE_KEY_FIELD_NAME_MAX_LENGTH)
    (.storage CODE_TABLE_FILED_LENGTH_OVERFLOW ("table field name length overflow ".toList ++ "64".toList))

variable (db : StateStorage) (blockNum : Int) (f : MemoryTableFactory2)

/-- `authorized` is what `checkAuthority` says of the sender. -/
def createTable (authorized : Bool) (origin sender tableName keyField valueFiled : Str) :
    Except TableException (Opened × MemoryTableFactory2) := do
  require authorized (.precompiled ("Permission denied. ".toList ++ origin ++ " can't call contract ".toList ++ sender))
  let keyField := trim keyField
  let names := fieldNameList valueFiled
  checkFieldLength keyField
  names.forM checkFieldLength
  let keyField ← checkNameValidate true tableName keyField names
  let valueFiled := [','].intercalate names
  require (valueFiled.length ≤ SYS_TABLE_VALUE_FIELD_MAX_LENGTH) (.storage CODE_TABLE_FILED_TOTALLENGTH_OVERFLOW
      ("total table field name length overflow ".toList ++ "1024".toList))
  let tableName := getTableName tableName
  require (tableName.length ≤ USER_TABLE_NAME_MAX_LENGTH && tableName.length ≤ USER_TABLE_NAME_MAX_LENGTH_S)
    (.storage CODE_TABLE_NAME_LENGTH_OVERFLOW ("tableName length overflow ".toList ++ "64".toList))
  return f.createTable db blockNum tableName keyField valueFiled true origin

end TableFactoryPrecompiled

structure FieldName (name : Str) : Prop where
  nonempty : name ≠ []
  head : name.head? ≠ some '_'
  chars : ∀ c ∈ name, isNameChar c = true

section

variable {throwStorageException : Bool}

lemma checkFieldNameValidate_eq_ok : checkFieldNameValidate throwStorageException name = .ok u ↔ FieldName name := by
  unfold checkFieldNameValidate
  simp only [Except.bind_eq_ok_iff, require_eq_ok, exists_const]
  constructor
  · rintro ⟨hhead, hchars⟩
    simp only [Bool.and_eq_true, Bool.not_eq_true', isEmpty_eq_false_iff, bne_iff_ne] at hhead
    exact ⟨hhead.1, hhead.2, all_eq_true.mp hchars⟩
  · rintro ⟨hnonempty, hhead, hchars⟩
    simp only [Bool.and_eq_true, Bool.not_eq_true', isEmpty_eq_false_iff, bne_iff_ne]
    exact ⟨⟨hnonempty, hhead⟩, all_eq_true.mpr hchars⟩

lemma checkValueFields_eq_ok {seen : List Str} : checkValueFields throwStorageException seen names = .ok u ↔
      (∀ name ∈ names, FieldName name ∧ name ∉ seen) ∧ names.Nodup := by
  induction names generalizing seen with
  | nil => simp [checkValueFields]
  | cons name names ih =>
    unfold checkValueFields
    simp only [Except.bind_eq_ok_iff, require_eq_ok, exists_const, checkFieldNameValidate_eq_ok, ih, mem_cons,
      not_or, forall_eq_or_imp, nodup_cons, Bool.not_eq_true', contains_eq_mem,
      decide_eq_false_iff_not]
    constructor
    · rintro ⟨hseen, hname, hnames, hnodup⟩
      exact ⟨⟨⟨hname, hseen⟩, fun n hn => ⟨(hnames n hn).1, (hnames n hn).2.2⟩⟩,
        fun hmem => (hnames name hmem).2.1 rfl, hnodup⟩
    · rintro ⟨⟨⟨hname, hseen⟩, hnames⟩, hnot, hnodup⟩
      exact ⟨hseen, hname, fun n hn => ⟨(hnames n hn).1, fun heq => hnot (heq ▸ hn), (hnames n hn).2⟩, hnodup⟩

lemma checkNameValidate_eq_ok {passed : Str} :
    checkNameValidate throwStorageException tableName keyField names = .ok passed ↔
      passed = trim keyField ∧ (∀ c ∈ tableName, isNameChar c = true) ∧
        (∀ name ∈ trim keyField :: names, FieldName name) ∧ (trim keyField :: names).Nodup := by
  unfold checkNameValidate checkTableNameValidate
  simp only [Except.bind_eq_ok_iff, require_eq_ok, exists_const, checkFieldNameValidate_eq_ok, checkValueFields_eq_ok,
    all_eq_true, forall_mem_cons, nodup_cons, mem_singleton]
  constructor
  · rintro ⟨htable, hkey, ⟨hnames, hnodup⟩, heq⟩
    cases heq
    exact ⟨rfl, htable, ⟨hkey, fun n hn => (hnames n hn).1⟩, fun hmem => (hnames _ hmem).2 rfl, hnodup⟩
  · rintro ⟨rfl, htable, ⟨hkey, hnames⟩, hnot, hnodup⟩
    exact ⟨htable, hkey, ⟨fun n hn => ⟨hnames n hn, fun heq => hnot (heq ▸ hn)⟩, hnodup⟩, rfl⟩

end

namespace TableFactoryPrecompiled

def declaredFields (keyField valueFiled : Str) : List Str :=
  trim keyField :: fieldNameList valueFiled

lemma trim_trim (s : Str) : trim (trim s) = trim s := by
  have hhead : (trim s).dropWhile isSpace = trim s := by
    rw [dropWhile_eq_self_iff]
    intro hpos hspace
    have htrimmed : trim s <+: s.dropWhile isSpace := rdropWhile_prefix isSpace _
    have hpos' : 0 < (s.dropWhile isSpace).length := lt_of_lt_of_le hpos htrimmed.length_le
    rw [htrimmed.getElem hpos] at hspace
    exact dropWhile_get_zero_not isSpace s hpos' hspace
  calc trim (trim s) = (trim s).rdropWhile isSpace := congrArg (rdropWhile isSpace) hhead
    _ = trim s := rdropWhile_idempotent isSpace _

variable {db : StateStorage} {blockNum : Int} {f : MemoryTableFactory2}

lemma fieldName_of_createTable {authorized : Bool} {origin sender valueFiled : Str}
    {created : Opened × MemoryTableFactory2}
    (h : createTable db blockNum f authorized origin sender tableName keyField valueFiled = .ok created)
    (hname : name ∈ declaredFields keyField valueFiled) : FieldName name := by
  unfold createTable at h
  simp only [Except.bind_eq_ok_iff, require_eq_ok, exists_const, checkNameValidate_eq_ok] at h
  obtain ⟨_, _, _, _, _, _, ⟨_, _, hnames, _⟩, _⟩ := h
  rw [trim_trim] at hnames
  exact hnames name hname

end TableFactoryPrecompiled

end FiscoBcos
