import FiscoBcos.BlockVerifier.TxDag
import FiscoBcos.Lib.Countdown
import FiscoBcos.Lib.Run

/-!
# The workers

`BlockVerifier::parallelExecuteBlock`, `TxDAG::executeUnit`, `DAG::waitPop` and `DAG::consume`. One step of a thread is one
operation on the shared data, so that the steps of a run interleave in every way.
-/

namespace FiscoBcos

/-- Where a thread is. The number counts the transactions since `executeUnit` was called. -/
inductive Worker where
  /-- before the test `hasFinished` -/
  | hasFinished
  | waitPop (exeCnt : Nat)
  /-- about to execute `id` -/
  | next (exeCnt id : Nat)
  /-- in `f_executeTx` -/
  | execute (exeCnt id : Nat)
  /-- in `consume`, before the next of the edges `rest` -/
  | consume (exeCnt id : Nat) (rest : List Nat) (nextId : Option Nat)
  /-- in `consume`, before `ready` is pushed -/
  | push (exeCnt id ready : Nat) (rest : List Nat) (nextId : Option Nat)
  /-- `waitPop` has given `INVALID_ID` -/
  | leave (exeCnt : Nat)
  | finished
deriving DecidableEq

inductive TxAction where
  | execute (id : Nat)
  | consume (id : Nat)
  | consumed (id : Nat)
deriving DecidableEq

/-- `log` is no state of the program. -/
structure ParallelExecution (w : Nat) where
  dag : DAG
  exeCnt : Nat := 0
  totalParaTxs : Nat
  workers : Fin w → Worker
  log : List TxAction := []

namespace DAG

/-- `inDegree.fetch_sub(1)`. -/
def countDown (t : Nat) (d : DAG) : DAG :=
  { d with vtxs := d.vtxs.modify t fun v => { v with inDegree := v.inDegree - 1 } }

def build (n : Nat) (edges : List (Nat × Nat)) : DAG :=
  (edges.foldl (fun d e => d.addEdge e.1 e.2) (init n {})).generate

end DAG

namespace ParallelExecution

variable {w : Nat}

def start (d : DAG) : ParallelExecution w where
  dag := d
  totalParaTxs := d.totalVtxs
  workers _ := .hasFinished

def setWorker (i : Fin w) (x : Worker) (s : ParallelExecution w) : ParallelExecution w :=
  { s with workers := Function.update s.workers i x }

def note (a : TxAction) (s : ParallelExecution w) : ParallelExecution w :=
  { s with log := a :: s.log }

/-- One round of the loop of `consume`: the first successor that becomes ready is kept. -/
def release (i : Fin w) (exeCnt id t : Nat) (rest : List Nat) (nextId : Option Nat)
    (s : ParallelExecution w) : ParallelExecution w :=
  let lastDegree := s.dag.inDegree t
  let s := { s with dag := s.dag.countDown t }
  if lastDegree = 1 then
    match nextId with
    | none => s.setWorker i (.consume exeCnt id rest (some t))
    | some _ => s.setWorker i (.push exeCnt id t rest nextId)
  else s.setWorker i (.consume exeCnt id rest nextId)

/-- The end of `consume`, and of the inner loop of `executeUnit`. -/
def endConsume (i : Fin w) (exeCnt id : Nat) (nextId : Option Nat) (s : ParallelExecution w) : ParallelExecution w :=
  let s := { s with dag := { s.dag with totalConsume := s.dag.totalConsume + 1 } }.note (.consumed id)
  match nextId with
  | some t => s.setWorker i (.next exeCnt t)
  | none => s.setWorker i (.waitPop exeCnt)

/-- Thread `i` takes a step. A wait for an empty queue ends because all is consumed or because the time is over. -/
def step (s : ParallelExecution w) (i : Fin w) : ParallelExecution w :=
  match s.workers i with
  | .hasFinished => s.setWorker i (if s.totalParaTxs ≤ s.exeCnt then .finished else .waitPop 0)
  | .waitPop exeCnt =>
    match s.dag.topLevel with
    | [] => s.setWorker i (.leave exeCnt)
    | id :: rest => { s with dag := { s.dag with topLevel := rest } }.setWorker i (.next exeCnt id)
  | .next exeCnt id => (s.note (.execute id)).setWorker i (.execute (exeCnt + 1) id)
  | .execute exeCnt id => (s.note (.consume id)).setWorker i (.consume exeCnt id (s.dag.outEdges id) none)
  | .consume exeCnt id (t :: rest) nextId => s.release i exeCnt id t rest nextId
  | .consume exeCnt id [] nextId => s.endConsume i exeCnt id nextId
  | .push exeCnt id ready rest nextId =>
    { s with dag := { s.dag with topLevel := s.dag.topLevel ++ [ready] } }.setWorker i (.consume exeCnt id rest nextId)
  | .leave exeCnt => { s with exeCnt := s.exeCnt + exeCnt }.setWorker i .hasFinished
  | .finished => s

def Stuck (s : ParallelExecution w) : Prop :=
  ∀ i, s.workers i = .finished

end ParallelExecution

namespace Worker

def held : Worker → List Nat
  | next _ id => [id]
  | execute _ id => [id]
  | consume _ id _ nextId => id :: nextId.toList
  | push _ id ready _ nextId => id :: ready :: nextId.toList
  | _ => []

def executing : Worker → List Nat
  | execute _ id => [id]
  | consume _ id _ _ => [id]
  | push _ id _ _ _ => [id]
  | _ => []

/-- The transaction that is consumed, with the edges still to be counted down. -/
def consuming : Worker → Option (Nat × List Nat)
  | consume _ id rest _ => some (id, rest)
  | push _ id _ rest _ => some (id, rest)
  | _ => none

def count : Worker → Nat
  | waitPop exeCnt => exeCnt
  | next exeCnt _ => exeCnt
  | execute exeCnt _ => exeCnt
  | consume exeCnt _ _ _ => exeCnt
  | push exeCnt _ _ _ _ => exeCnt
  | leave exeCnt => exeCnt
  | _ => 0

end Worker

def ParallelExecution.Idle {w : Nat} (s : ParallelExecution w) : Prop :=
  s.dag.topLevel = [] ∧ ∀ i, (s.workers i).held = []

end FiscoBcos
