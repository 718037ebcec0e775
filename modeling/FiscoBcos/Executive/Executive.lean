import FiscoBcos.Precompiled.PermissionPrecompiled
import FiscoBcos.Storage.TableCreation

/-!
# Nested executions

`libexecutive/Executive.cpp` and `EVMHostContext.cpp`: where calls and creations take their savepoints, where they revert,
and on which thread they run. `StorageState` shares savepoint and change log with the factory, so that the two rollbacks
of `revert` are one.
-/

namespace FiscoBcos

def V2_3_0 : Nat := 0x02030000

def c_offloadPoint : Nat :=
  (8 * 1024 * 1024 - 128 * 1024) / (100 * 1024)

namespace Executive

inductive Callee where
  | ethereumPrecompiled
  | precompiled
  | frozen
  | code
  | missing
deriving DecidableEq

/-- How the init code ends: with code, with an error that the machine returns, or with an exception, which is also that of
a code that is too long or cannot be paid. -/
inductive InitResult where
  | success
  | error
  | exception
deriving DecidableEq

structure Creation where
  accountFrozen : Bool := false
  incNonce : List FactoryOp := []
  alreadyUsed : Bool := false
  setUp : List FactoryOp := []
  init : Option InitResult := none
  setCode : List FactoryOp := []

/-- `excepted` says how the code of a call, or the precompiled contract, ends. -/
inductive Frame where
  | call (callee : Callee) (excepted : Bool)
  | create (c : Creation)

/-- What a contract does: table operations, and inner frames with their own code. -/
inductive Code where
  | stop
  | op (o : FactoryOp) (rest : Code)
  | inner (frame : Frame) (body rest : Code)

/-- What an execution reads of its block and transaction. -/
structure Context where
  db : StateStorage
  blockNum : Int
  version : Nat
  origin : Str

section

variable (ctx : Context) (f : MemoryTableFactory2)

def ops (l : List FactoryOp) : MemoryTableFactory2 :=
  Machine.run (MemoryTableFactory2.step ctx.db ctx.blockNum) f l

/-- `go(depth, e)`. The change log is that of the thread: a new thread begins with an empty one, and the thread that waits
for it keeps its own. -/
def go (depth : Nat) (run : MemoryTableFactory2 → MemoryTableFactory2) (f : MemoryTableFactory2) :
    MemoryTableFactory2 :=
  if depth = c_offloadPoint then { run { f with changeLog := [] } with changeLog := f.changeLog } else run f

def revertIf (excepted : Bool) (savepoint : Nat) (f : MemoryTableFactory2) : MemoryTableFactory2 :=
  if excepted then f.rollback savepoint else f

/-- `body` is the code of the callee, which `go` runs, or what the precompiled contract does. -/
def callRC2 (go : (MemoryTableFactory2 → MemoryTableFactory2) → MemoryTableFactory2 → MemoryTableFactory2)
    (callee : Callee) (excepted : Bool) (body : MemoryTableFactory2 → MemoryTableFactory2) (f : MemoryTableFactory2) :
    MemoryTableFactory2 :=
  let savepoint := f.savepoint
  match callee with
  | .ethereumPrecompiled => f
  | .precompiled => revertIf excepted savepoint (body f)
  | .frozen => f.rollback savepoint
  | .code => go (fun f => revertIf excepted savepoint (body f)) f
  | .missing => if V2_3_0 ≤ ctx.version then f.rollback savepoint else f

def mayDeploy (c : Creation) (sysTable : MemoryTable2) : Bool :=
  sysTable.checkAuthority ctx.origin && !(V2_5_0 ≤ ctx.version && c.accountFrozen)

section

variable (go : (MemoryTableFactory2 → MemoryTableFactory2) → MemoryTableFactory2 → MemoryTableFactory2) (c : Creation) (body : MemoryTableFactory2 → MemoryTableFactory2) (f : MemoryTableFactory2)

/-- `executeCreate` and `go` of a creation from where its savepoint is taken. -/
def deploy : MemoryTableFactory2 :=
  let savepoint := f.savepoint
  if c.alreadyUsed then f.rollback savepoint
  else
    let f := ops ctx f c.setUp
    match c.init with
    | none => f
    | some .success => go (fun f => ops ctx (body f) c.setCode) f
    -- the code is set after the revert, too
    | some .error => go (fun f => ops ctx ((body f).rollback savepoint) c.setCode) f
    | some .exception => go (fun f => (body f).rollback savepoint) f

/-- The first two checks revert before the savepoint is taken, while it is 0. -/
def executeCreate : MemoryTableFactory2 :=
  match f.openTable ctx.db ctx.blockNum SYS_TABLES true with
  | (.table sysTable, f) =>
    if mayDeploy ctx c sysTable then deploy ctx go c body (ops ctx f c.incNonce) else f.rollback 0
  -- the exception is not caught, and the node exits
  | (_, f) => f

end

def callExcepted (callee : Callee) (excepted : Bool) : Bool :=
  match callee with
  | .frozen | .missing => true
  | _ => excepted

def createExcepted (c : Creation) (f : MemoryTableFactory2) : Bool :=
  match f.openTable ctx.db ctx.blockNum SYS_TABLES true with
  | (.table sysTable, _) => !mayDeploy ctx c sysTable || c.alreadyUsed || c.init = some .error || c.init = some .exception
  | _ => false

def Frame.excepted : Frame → Bool
  | .call callee excepted => callExcepted callee excepted
  | .create c => createExcepted ctx c f

def runFrame (depth : Nat) : Frame → (MemoryTableFactory2 → MemoryTableFactory2) → MemoryTableFactory2 →
    MemoryTableFactory2
  | .call callee excepted => callRC2 ctx (go depth) callee excepted
  | .create c => executeCreate ctx (go depth) c

def execute (depth : Nat) : Code → MemoryTableFactory2 → MemoryTableFactory2
  | .stop, f => f
  | .op o rest, f => execute depth rest (f.step ctx.db ctx.blockNum o)
  | .inner frame body rest, f =>
    execute depth rest (runFrame ctx depth frame (execute (depth + 1) body) f)

/-- A transaction that calls a contract: `Executive::execute`, and `go` on the same thread. -/
def executeCall (accountFrozen : Bool) (callee : Callee) (excepted : Bool) (body : Code) (f : MemoryTableFactory2) :
    MemoryTableFactory2 :=
  if V2_5_0 ≤ ctx.version ∧ accountFrozen then f.rollback f.savepoint
  else callRC2 ctx (fun run f => run f) callee excepted (execute ctx 0 body) f

end

end Executive

end FiscoBcos
