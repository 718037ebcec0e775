import FiscoBcos.Lib.Run
import FiscoBcos.Storage.MemoryTable2

/-!
# The tables of a block

`libstorage/MemoryTableFactory2.cpp`: the open tables and the log of the changes of their rows, of which
the newest is the first here. Tables are opened and created in `FiscoBcos.Storage.OpenTable`.
-/

namespace FiscoBcos

/-- The open tables of a block and the change log. -/
structure MemoryTableFactory2 where
  name2Table : Std.ExtTreeMap Str MemoryTable2 := ∅
  changeLog : List (Str × Change) := []

inductive TableCall where
  | insert (key : Str) (entry : FieldMap) (options : AccessOptions)
  | update (key : Str) (entry : FieldMap) (condition : Condition) (options : AccessOptions)
  | remove (key : Str) (condition : Condition) (options : AccessOptions)

def TableCall.apply (db : StateStorage) (t : MemoryTable2) : TableCall → Except StorageError (MemoryTable2 × Change)
  | insert key entry options => t.insert key entry options
  | update key entry condition options => t.update db key entry condition options
  | remove key condition options => t.remove db key condition options

namespace MemoryTableFactory2

variable (f : MemoryTableFactory2)

/-- A call that fails changes nothing. The recorder of the table writes the change to the log. -/
def call (db : StateStorage) (f : MemoryTableFactory2) (c : Str × TableCall) : MemoryTableFactory2 :=
  match f.name2Table[c.1]? with
  | none => f
  | some t =>
    match c.2.apply db t with
    | .error _ => f
    | .ok (t, change) =>
      { name2Table := f.name2Table.insert c.1 t, changeLog := (c.1, change) :: f.changeLog }

def savepoint : Nat :=
  f.changeLog.length

def undoLast : MemoryTableFactory2 :=
  match f.changeLog with
  | [] => f
  | (name, change) :: changeLog =>
    { name2Table := f.name2Table.modify name fun t => t.rollback change, changeLog := changeLog }

def rollback (savepoint : Nat) : MemoryTableFactory2 :=
  undoLast^[f.changeLog.length - savepoint] f

end MemoryTableFactory2

end FiscoBcos
