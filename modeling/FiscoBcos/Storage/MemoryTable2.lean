import FiscoBcos.Storage.Table

/-!
# The table of a block

`libstorage/MemoryTable2.cpp` for versions from 2.5.0 on: the rows that the transactions of a block have inserted, updated
or removed, in front of the rows of the database. An entry that `select` returns is modelled by the row and its place.
-/

namespace FiscoBcos

open Std.ExtTreeMap

/-- The rows of the database under every table name and key, in the order in which `select` gives them. No two rows of a
table have the same number, also under different keys. -/
structure StateStorage where
  rows : Str → Str → List Entry
  id_ne_zero : ∀ name key, ∀ e ∈ rows name key, e.id ≠ 0
  id_unique : ∀ name key key', ∀ e ∈ rows name key, ∀ e' ∈ rows name key', e.id = e'.id → key = key' ∧ e = e'
  nodup : ∀ name key, (rows name key).Nodup

def StateStorage.noRows : StateStorage where
  rows _ _ := []
  id_ne_zero _ _ _ h := absurd h List.not_mem_nil
  id_unique _ _ _ _ h := absurd h List.not_mem_nil
  nodup _ _ := List.nodup_nil

def StateStorage.select (db : StateStorage) (info : TableInfo) (key : Str) (condition : Condition) : List Entry :=
  (db.rows info.name key).filter fun e => condition.process e.toRow

inductive Change.Kind where
  | insert
  | update
  | remove
deriving DecidableEq

structure Change.Record where
  index : Nat
  key : Str := []
  oldValue : Str := []
  id : Nat := 0
deriving DecidableEq

structure Change where
  kind : Change.Kind
  key : Str
  value : List Change.Record
deriving DecidableEq

inductive StorageError where
  /-- `CODE_NO_AUTHORIZED` -/
  | noAuthorized
  /-- `std::invalid_argument("Invalid key.")` -/
  | invalidKey
deriving DecidableEq

/-- A row that `select` has found, with its place: under its number in `dirty`, or under `tempIndex` in the new rows of
the key if the number is 0. -/
structure Selected extends Entry where
  tempIndex : Nat := 0
deriving DecidableEq

/-- The rows in `dirty` have numbers other than 0, and every updated one is among them. -/
structure MemoryTable2 where
  info : TableInfo
  newEntries : Std.ExtTreeMap Str (List Row) := ∅
  dirty : Std.ExtTreeMap Nat Row := ∅
  dirtyUpdated : Std.ExtTreeMap Str (Std.ExtTreeSet Nat) := ∅
  zero_dirty : dirty[0]? = none
  updated_dirty : ∀ key id, id ∈ dirtyUpdated.getD key ∅ → dirty[id]? ≠ none

namespace MemoryTable2

def opened (info : TableInfo) : MemoryTable2 where
  info := info
  zero_dirty := getElem?_empty
  updated_dirty key id h := by simp at h

variable (t : MemoryTable2)

def checkAuthority (origin : Str) : Bool :=
  t.info.authorizedAddress.isEmpty || t.info.authorizedAddress.contains origin

def checkField (entry : FieldMap) : Bool :=
  entry.keys.all t.info.fields.contains

def newRows (key : Str) : List Row :=
  t.newEntries.getD key []

def updatedIds (key : Str) : Std.ExtTreeSet Nat :=
  t.dirtyUpdated.getD key ∅

variable (condition : Condition)

def fromDB (e : Entry) : Option Selected :=
  match t.dirty[e.id]? with
  | some row => if condition.process row then some { toRow := row, id := e.id } else none
  | none => some { toEntry := e }

def fromUpdated (id : Nat) : Option Selected :=
  match t.dirty[id]? with
  | some row => if condition.process row then some { toRow := row, id := id } else none
  | none => none

def fromNew (row : Row × Nat) : Option Selected :=
  if condition.process row.1 then some { toRow := row.1, tempIndex := row.2 } else none

def processed (dbEntries : List Entry) : List Nat :=
  (dbEntries.map Entry.id).filter fun id => t.dirty.contains id

end MemoryTable2

def Condition.proccessLimit {α : Type*} (condition : Condition) (entries : List α) : List α :=
  let first := condition.getOffset.toNat
  let last := min 2147483647 (first + condition.getCount.toNat)
  (entries.take last).drop first

namespace MemoryTable2

variable (t : MemoryTable2) (db : StateStorage) (key : Str) (condition : Condition)

def matching : List Selected :=
  let dbEntries := db.select t.info key condition
  let diff := (t.updatedIds key).toList.filter fun id => id ∉ t.processed dbEntries
  dbEntries.filterMap (t.fromDB condition) ++ diff.filterMap (t.fromUpdated condition) ++
    (t.newRows key).zipIdx.filterMap (fromNew condition)

def select : List Selected :=
  let condition := condition.EQ t.info.key key
  let entries := t.matching db key condition
  if condition.limited then condition.proccessLimit entries else entries

variable (row : Row)

def addNew : MemoryTable2 :=
  { t with newEntries := t.newEntries.insert key (t.newRows key ++ [row]) }

def insert (entry : FieldMap) (options : AccessOptions) : Except StorageError (MemoryTable2 × Change) :=
  if options.check && !t.checkAuthority options.origin then .error .noAuthorized
  else if !t.checkField entry then .error .invalidKey
  else
    .ok (t.addNew key { fields := entry.insert t.info.key key }, ⟨.insert, key, [{ index := (t.newRows key).length }]⟩)

variable {id : Nat} (f : Row → Row)

lemma zero_dirty_modify : (t.dirty.modify id f)[0]? = none := by
  rw [getElem?_modify]
  split
  case isTrue h => rw [compare_eq_iff_eq.mp h, t.zero_dirty, Option.map_none]
  case isFalse => exact t.zero_dirty

lemma updated_dirty_modify (key : Str) (k : Nat)
    (hk : k ∈ t.dirtyUpdated.getD key ∅) : (t.dirty.modify id f)[k]? ≠ none := by
  have hdirty := t.updated_dirty key k hk
  rw [getElem?_modify]
  split
  case isTrue h =>
    rw [compare_eq_iff_eq.mp h]
    simpa using hdirty
  case isFalse => exact hdirty

def modifyEntry (index id : Nat) (f : Row → Row) : MemoryTable2 :=
  if id ≠ 0 then
    { t with
      dirty := t.dirty.modify id f
      zero_dirty := t.zero_dirty_modify f
      updated_dirty := t.updated_dirty_modify f }
  else { t with newEntries := t.newEntries.modify key fun rows => rows.modify index f }

lemma zero_dirty_insert {row : Row} (hid : id ≠ 0) : (t.dirty.insert id row)[0]? = none := by
  rw [getElem?_insert, if_neg (by simpa using hid)]
  exact t.zero_dirty

lemma updated_dirty_insert (key : Str) (k : Nat)
    (hk : k ∈ t.dirtyUpdated.getD key ∅) : (t.dirty.insert id row)[k]? ≠ none := by
  rw [getElem?_insert]
  split
  · simp
  · exact t.updated_dirty key k hk

lemma updated_dirty_mark {key : Str} (key' : Str) (k : Nat)
    (hk : k ∈ (t.dirtyUpdated.insert key ((t.updatedIds key).insert id)).getD key' ∅) :
    (t.dirty.insert id row)[k]? ≠ none := by
  rw [getElem?_insert]
  split
  · simp
  case isFalse hne =>
    rw [getD_insert] at hk
    split at hk
    · have hmem : k ∈ t.updatedIds key := by simpa [hne] using hk
      exact t.updated_dirty key k hmem
    · exact t.updated_dirty key' k hk

/-- A row of the database that is changed for the first time goes to `m_dirty`; `mark` also puts it in
`m_dirty_updated`. -/
def load (mark : Bool) (key : Str) (s : Selected) : MemoryTable2 :=
  if h : s.id ≠ 0 ∧ t.dirty[s.id]? = none then
    if mark then
      { t with
        dirty := t.dirty.insert s.id s.toRow
        dirtyUpdated := t.dirtyUpdated.insert key ((t.updatedIds key).insert s.id)
        zero_dirty := t.zero_dirty_insert h.1
        updated_dirty := t.updated_dirty_mark s.toRow }
    else
      { t with
        dirty := t.dirty.insert s.id s.toRow
        zero_dirty := t.zero_dirty_insert h.1
        updated_dirty := t.updated_dirty_insert s.toRow }
  else t

def changeRows (mark : Bool) (key : Str) (f : Row → Row) (entries : List Selected) : MemoryTable2 :=
  entries.foldl (fun t s => (t.load mark key s).modifyEntry key s.tempIndex s.id f) t

variable (db : StateStorage)

def writtenFields (entry : FieldMap) : List (Str × Str) :=
  entry.toList.filter fun f => f.1 ≠ ID_FIELD ∧ f.1 ≠ t.info.key

/-- The names of an entry differ, so the old values are those before the loop over them. -/
def updateRecords (fields : List (Str × Str)) (s : Selected) : List Change.Record :=
  fields.map fun f => ⟨s.tempIndex, f.1, s.getField f.1, s.id⟩

def update (key : Str) (entry : FieldMap) (condition : Condition) (options : AccessOptions) :
    Except StorageError (MemoryTable2 × Change) :=
  if options.check && !t.checkAuthority options.origin then .error .noAuthorized
  else if !t.checkField entry then .error .invalidKey
  else
    let entries := t.select db key condition
    let fields := t.writtenFields entry
    .ok (t.changeRows true key (Row.setFields fields) entries, ⟨.update, key, entries.flatMap (updateRecords fields)⟩)

def remove (key : Str) (condition : Condition) (options : AccessOptions) :
    Except StorageError (MemoryTable2 × Change) :=
  if options.check && !t.checkAuthority options.origin then .error .noAuthorized
  else
    let entries := t.select db key condition
    .ok (t.changeRows false key (Row.setStatus .deleted) entries,
      ⟨.remove, key, entries.map fun s => { index := s.tempIndex, id := s.id }⟩)

def undoRecord (kind : Change.Kind) (record : Change.Record) : Row → Row :=
  match kind with
  | .insert => Row.setDeleted true
  | .update => Row.setField record.key record.oldValue
  | .remove => Row.setStatus .normal

def rollback (change : Change) : MemoryTable2 :=
  change.value.foldl (fun t record =>
    t.modifyEntry change.key record.index record.id (undoRecord change.kind record)) t

end MemoryTable2

end FiscoBcos
