import FiscoBcos.Executive.Executive

/-!
# Gas

`libexecutive/Executive.cpp`, `EVMHostContext.cpp` and `libinterpreter/VM.cpp`, `VMCalls.cpp`. What the machine executes is
a tree: the instructions with their costs, and for a call or creation also the code that runs there. The codes for which
the node exits are left out.
-/

namespace FiscoBcos

open List Nat

def V2_4_0 : Nat := 0x02040000

inductive TransactionException where
  | none
  | unknown
  | notEnoughCash
  | outOfGasBase
  | badInstruction
  | badJumpDestination
  | outOfGas
  | outOfStack
  | stackUnderflow
  | precompiledError
  | revertInstruction
  | addressAlreadyUsed
  | permissionDenied
  | callAddressError
  | gasOverflow
  | contractFrozen
  | accountFrozen
deriving DecidableEq

namespace Gas

/-- `evmc_status_code`; `other` is a code that `parseEVMCResult` does not name. -/
inductive StatusCode where
  | success
  | failure
  | revert
  | outOfGas
  | invalidInstruction
  | undefinedInstruction
  | stackOverflow
  | stackUnderflow
  | badJumpDestination
  | invalidMemoryAccess
  | staticModeViolation
  | other
deriving DecidableEq

structure Result where
  status : StatusCode
  gasLeft : Nat := 0
  output : Bytes := []

/-- The version and what is used here of `EVMSchedule` and `VMSchedule`. -/
structure Schedule where
  version : Nat := V2_6_0
  freeStorage : Bool := false
  maxCodeSize : Nat := 0x40000
  createDataGas : Nat := 200
  exceptionalFailedCodeDeposit : Bool := true
  suicideRefundGas : Nat := 24000

/-- What an exit does with the gas that the execution was given: it takes what the machine or the contract has left, or
nothing is left, or the counter stays as it is although the gas was not enough. -/
inductive Exit where
  | settled
  | emptied
  | kept
deriving DecidableEq

structure Progress where
  gas : Nat
  excepted : TransactionException := .none
  reverted : Bool := false
  exit : Exit := .settled

def Progress.fail (e : Progress) (excepted : TransactionException) (exit : Exit) : Progress :=
  { e with excepted := excepted, reverted := true, exit := exit }

def Progress.empty (excepted : TransactionException) : Progress :=
  { gas := 0, excepted := excepted, reverted := true, exit := .emptied }

open Progress

/-- The exception `OutOfGas` is `none`. -/
def parseEVMCResult (e : Progress) (r : Result) : Option Progress :=
  match r.status with
  | .success => some { e with gas := r.gasLeft }
  | .revert => some (fail { e with gas := r.gasLeft } .revertInstruction .settled)
  | .outOfGas | .failure => some (e.fail .outOfGas .kept)
  | .invalidInstruction | .undefinedInstruction => some (.empty .badInstruction)
  | .badJumpDestination => some (.empty .badJumpDestination)
  | .stackOverflow => some (.empty .outOfStack)
  | .stackUnderflow => some (.empty .stackUnderflow)
  | .invalidMemoryAccess | .staticModeViolation => some (.empty .unknown)
  | .other => none

/-- What `go` does with the output of the init code, also after a failure: the code that is stored, if any. -/
def deposit (s : Schedule) (e : Progress) (output : Bytes) : Progress × Option Bytes :=
  if s.maxCodeSize < output.length then (e.fail .outOfGas .kept, none)
  else if output.length * s.createDataGas ≤ e.gas then
    ({ e with gas := if s.freeStorage then e.gas else e.gas - output.length * s.createDataGas }, some output)
  else if s.exceptionalFailedCodeDeposit then (e.fail .outOfGas .kept, none)
  else (e, some [])

def settle (s : Schedule) (isCreation : Bool) (gas : Nat) (r : Result) : Progress × Option Bytes :=
  match parseEVMCResult { gas := gas } r with
  | none => (fail { gas := gas } .outOfGas .kept, none)
  | some e => if isCreation then deposit s e r.output else (e, none)

structure SubState where
  suicides : Finset Nat := ∅
  refunds : Nat := 0

def SubState.add (s t : SubState) : SubState :=
  ⟨s.suicides ∪ t.suicides, s.refunds + t.refunds⟩

structure Inner where
  given : Nat
  returned : Nat
  exit : Exit

/-- If the gas was not enough, none of it comes back. -/
def Inner.Clears (i : Inner) : Prop :=
  i.exit = .kept → i.returned = 0
deriving Decidable

/-- The result of the machine, with the costs of the instructions and the inner executions. -/
structure Execution extends Result where
  sub : SubState := {}
  cost : Nat := 0
  inner : List Inner := []

def Execution.after (x : Execution) (cost : Nat) (sub : SubState) (inner : List Inner) : Execution :=
  { x with sub := sub.add x.sub, cost := cost + x.cost, inner := inner ++ x.inner }

structure Ended extends Progress where
  ext : Option SubState := none
  code : Option Bytes := none
  cost : Nat := 0
  inner : List Inner := []

section

variable (s : Schedule) (exec : Nat → Execution) (gas : Nat)

def go (isCreation : Bool) : Ended :=
  if 9223372036854775807 < gas then
    { toProgress := fail { gas := gas } .gasOverflow .settled, ext := some {} }
  else
    let x := exec gas
    let e := settle s isCreation gas x.toResult
    { toProgress := e.1, ext := some (if e.1.reverted then {} else x.sub), code := e.2, cost := x.cost, inner := x.inner }

/-- A precompiled contract ends with the gas of its result or with an exception. -/
inductive Callee where
  | ethereumPrecompiled (cost : Nat) (success : Bool)
  | precompiled (result : Except TransactionException Nat)
  | frozen
  | code
  | missing

def callRC2 : Callee → Ended
  | .ethereumPrecompiled cost success =>
    if V2_5_0 ≤ s.version ∧ gas < cost then { gas := gas, excepted := .outOfGasBase, exit := .kept }
    else if V2_6_0 ≤ s.version ∧ success = false then { gas := 0, excepted := .revertInstruction }
    else { gas := if V2_5_0 ≤ s.version then gas - cost else gas }
  | .precompiled (.error excepted) => { toProgress := fail { gas := gas } excepted .settled }
  | .precompiled (.ok gasUsed) =>
    if s.version < V2_4_0 then { gas := gas }
    -- `updateGas` throws
    else if gas < gasUsed then { toProgress := fail { gas := gas } .precompiledError .kept }
    else { gas := gas - gasUsed }
  | .frozen => { toProgress := fail { gas := gas } .contractFrozen .settled }
  | .code => go s exec gas false
  | .missing => { gas := gas, excepted := .callAddressError, reverted := V2_3_0 ≤ s.version }

inductive Creation where
  | permissionDenied
  | accountFrozen
  | alreadyUsed
  | noInit
  | init

def executeCreate : Creation → Ended
  | .permissionDenied => { toProgress := .empty .permissionDenied }
  | .accountFrozen => { toProgress := .empty .accountFrozen }
  | .alreadyUsed => { toProgress := .empty .addressAlreadyUsed }
  | .noInit => { gas := gas }
  | .init => go s exec gas true

end

def Schedule.callGas (s : Schedule) (value : Bool) : Nat :=
  700 + if value && !s.freeStorage then 9000 else 0

def Schedule.callStipend (s : Schedule) (value : Bool) : Nat :=
  if value then (if s.freeStorage then 10 else 2300) else 0

def Schedule.createGas (s : Schedule) : Nat :=
  if s.freeStorage then 16000 else 32000

section

variable (s : Schedule) (cost : Nat) (entered : Bool) (body rest : Nat → Execution) (gas : Nat)

/-- The costs of a call and a creation are what comes on top of those that are always charged; `entered` says that the
balance is enough and the depth not too large. The stipend is gas that is handed on, so it is not among the costs. -/
def caseCall (callGas : Nat) (value : Bool) (callee : Callee) : Execution :=
  let cost := s.callGas value + cost
  if gas < cost then { status := .outOfGas }
  else
    let gas := gas - cost
    let callGas := min callGas (gas - gas / 64)
    let given := callGas + s.callStipend value
    if entered then
      let e := callRC2 s body given callee
      (rest (gas - callGas + e.gas)).after (cost - s.callStipend value + e.cost) (e.ext.getD {})
        (e.inner ++ [⟨given, e.gas, e.exit⟩])
    -- the stipend goes to the caller, too
    else (rest (gas - callGas + given)).after (cost - s.callStipend value) {} []

def caseCreate (c : Creation) : Execution :=
  let cost := s.createGas + cost
  if gas < cost then { status := .outOfGas }
  else
    let gas := gas - cost
    let given := gas - gas / 64
    if entered then
      let e := executeCreate s body given c
      (rest (gas - (given - e.gas))).after (cost + e.cost) (e.ext.getD {}) (e.inner ++ [⟨given, e.gas, e.exit⟩])
    else (rest gas).after cost {} []

end

inductive Code where
  | halt (status : StatusCode) (output : Bytes)
  | denied
  | instr (cost : Nat) (sub : SubState) (rest : Code)
  | call (cost : Nat) (entered : Bool) (callGas : Nat) (value : Bool) (callee : Callee) (body rest : Code)
  | create (cost : Nat) (entered : Bool) (c : Creation) (body rest : Code)

def exec (s : Schedule) : Code → Nat → Execution
  | .halt status output, gas =>
    { status := status, gasLeft := if status = .success ∨ status = .revert then gas else 0, output := output }
  | .denied, _ => { status := .revert }
  | .instr cost sub rest, gas =>
    if gas < cost then { status := .outOfGas } else (exec s rest (gas - cost)).after cost sub []
  | .call cost entered callGas value callee body rest, gas =>
    caseCall s cost entered (exec s body) (exec s rest) gas callGas value callee
  | .create cost entered c body rest, gas => caseCreate s cost entered (exec s body) (exec s rest) gas c

inductive Frame where
  | call (accountFrozen : Bool) (callee : Callee)
  | create (c : Creation)

/-- `initialize`, `execute` and `go` of a transaction. Without its base gas it ends with an exception, while `m_gas` is
0. -/
def execute (s : Schedule) (txGasLimit baseGas : Nat) (frame : Frame) (body : Code) : Ended :=
  if txGasLimit < baseGas then { gas := 0, excepted := .outOfGasBase }
  else
    let gas := txGasLimit - baseGas
    match frame with
    | .call accountFrozen callee =>
      if V2_5_0 ≤ s.version ∧ accountFrozen = true then
        { toProgress := fail { gas := gas } .accountFrozen .settled }
      else callRC2 s (exec s body) gas callee
    | .create c => executeCreate s (exec s body) gas c

variable {gas left cost : Nat} {e : Ended} {isCreation : Bool} {sub : SubState}

section

/-- The inner executions return at most what they were given, and the costs are within the gas if each of them clears. -/
structure Bounded (gas left cost : Nat) (inner : List Inner) : Prop where
  left_le : left ≤ gas
  returned : ∀ i ∈ inner, i.returned ≤ i.given ∧ (i.exit = .emptied → i.returned = 0)
  cost_le : (∀ i ∈ inner, i.Clears) → cost + left ≤ gas

structure Ended.Bounded (gas : Nat) (e : Ended) : Prop where
  gas_le : e.gas ≤ gas
  emptied : e.exit = .emptied → e.gas = 0
  body : Gas.Bounded gas 0 e.cost e.inner
  cost_le : (∀ i ∈ e.inner, i.Clears) → e.exit ≠ .kept → e.cost + e.gas ≤ gas

lemma Bounded.idle (h : left ≤ gas) : Bounded gas left 0 [] where
  left_le := h
  returned := forall_mem_nil _
  cost_le _ := by omega

lemma Ended.Bounded.idle (hcost : e.cost = 0) (hinner : e.inner = []) (hgas : e.gas ≤ gas)
    (hempty : e.exit = .emptied → e.gas = 0) : e.Bounded gas where
  gas_le := hgas
  emptied := hempty
  body := by
    rw [hcost, hinner]
    exact .idle (zero_le _)
  cost_le _ _ := by omega

def Bounds (x : Nat → Execution) : Prop :=
  ∀ gas, Bounded gas (x gas).gasLeft (x gas).cost (x gas).inner

variable {s : Schedule} {x y : Nat → Execution}

lemma settle_spec {r : Result} (hleft : r.gasLeft ≤ gas) : ((settle s isCreation gas r).1.gas ≤ r.gasLeft ∨
        (settle s isCreation gas r).1.exit = .kept ∧ (settle s isCreation gas r).1.gas ≤ gas) ∧
      ((settle s isCreation gas r).1.exit = .emptied → (settle s isCreation gas r).1.gas = 0) := by
  have hparse : ∀ e, parseEVMCResult { gas := gas } r = some e →
      (e.gas ≤ r.gasLeft ∨ e.exit = .kept ∧ e.gas ≤ gas) ∧ (e.exit = .emptied → e.gas = 0) := by
    intro e he
    unfold parseEVMCResult at he
    split at he <;> cases he <;> simp [fail, empty]
  unfold settle
  cases hp : parseEVMCResult { gas := gas } r with
  | none => exact ⟨.inr ⟨rfl, le_refl _⟩, by simp [fail]⟩
  | some e =>
    obtain ⟨hgas, hempty⟩ := hparse e hp
    cases isCreation with
    | false => exact ⟨hgas, hempty⟩
    | true =>
      have hkept : e.gas ≤ gas := hgas.elim (·.trans hleft) And.right
      simp only [deposit, if_true]
      split_ifs
      · exact ⟨.inr ⟨rfl, hkept⟩, by simp [fail]⟩
      · exact ⟨hgas, hempty⟩
      · refine ⟨hgas.imp (sub_le _ _).trans (And.imp_right (sub_le _ _).trans), fun hexit => ?_⟩
        simp [hempty hexit]
      · exact ⟨.inr ⟨rfl, hkept⟩, by simp [fail]⟩
      · exact ⟨hgas, hempty⟩

lemma bounded_go (hx : Bounds x) : (go s x gas isCreation).Bounded gas := by
  unfold go
  split
  · exact .idle rfl rfl (le_refl _) (by simp [fail])
  have hb := hx gas
  obtain ⟨hgas, hempty⟩ := settle_spec (s := s) hb.left_le
  refine ⟨hgas.elim (·.trans hb.left_le) And.right, hempty, ⟨zero_le _, hb.returned, fun h => ?_⟩, fun h hexit => ?_⟩
  · exact (Nat.add_le_add_left (Nat.zero_le _) _).trans (hb.cost_le h)
  · exact (Nat.add_le_add_left (hgas.resolve_right fun hkept => hexit hkept.1) _).trans (hb.cost_le h)

lemma bounded_callRC2 (hx : Bounds x) (gas : Nat) (callee : Callee) : (callRC2 s x gas callee).Bounded gas := by
  cases callee with
  | code => exact bounded_go hx
  | ethereumPrecompiled =>
    simp only [callRC2]
    split_ifs <;> exact .idle rfl rfl (by simp) (by simp)
  | precompiled result =>
    cases result with
    | error => exact .idle rfl rfl (le_refl _) (by simp [callRC2, fail])
    | ok =>
      simp only [callRC2]
      split_ifs <;> exact .idle rfl rfl (by simp [fail]) (by simp [fail])
  | _ => exact .idle rfl rfl (le_refl _) (by simp [callRC2, fail])

lemma bounded_executeCreate (hx : Bounds x) (gas : Nat) (c : Creation) : (executeCreate s x gas c).Bounded gas := by
  cases c with
  | init => exact bounded_go hx
  | noInit => exact .idle rfl rfl (le_refl _) (by simp [executeCreate])
  | _ => exact .idle rfl rfl (zero_le _) fun _ => rfl

lemma Bounded.after {x : Execution} {inner : List Inner} (hrest : Bounded left x.gasLeft x.cost x.inner)
    (hleft : left ≤ gas) (hinner : ∀ i ∈ inner, i.returned ≤ i.given ∧ (i.exit = .emptied → i.returned = 0))
    (hcost : (∀ i ∈ inner, i.Clears) → cost + left ≤ gas) :
    Bounded gas (x.after cost sub inner).gasLeft (x.after cost sub inner).cost (x.after cost sub inner).inner where
  left_le := hrest.left_le.trans hleft
  returned := forall_mem_append.mpr ⟨hinner, hrest.returned⟩
  cost_le h := by
    obtain ⟨hthis, hlater⟩ := forall_mem_append.mp h
    have := hcost hthis
    have := hrest.cost_le hlater
    simp only [Execution.after]
    omega

lemma Bounded.after_inner {given paid : Nat} {x : Execution} (hrest : Bounded left x.gasLeft x.cost x.inner)
    (he : e.Bounded given) (hgiven : given ≤ paid) (hleft : cost + paid + left = gas + e.gas) :
    Bounded gas (x.after (cost + e.cost) sub (e.inner ++ [⟨given, e.gas, e.exit⟩])).gasLeft
      (x.after (cost + e.cost) sub (e.inner ++ [⟨given, e.gas, e.exit⟩])).cost
      (x.after (cost + e.cost) sub (e.inner ++ [⟨given, e.gas, e.exit⟩])).inner := by
  have := he.gas_le
  refine hrest.after (by omega) (forall_mem_append.mpr ⟨he.body.returned, ?_⟩) fun h => ?_
  · simpa using ⟨he.gas_le, he.emptied⟩
  obtain ⟨hbody, hlast⟩ := forall_mem_append.mp h
  by_cases hexit : e.exit = .kept
  · have hnone : e.gas = 0 := hlast _ (mem_singleton.mpr rfl) hexit
    have := he.body.cost_le hbody
    omega
  · have := he.cost_le hbody hexit
    omega

lemma callStipend_le (s : Schedule) (value : Bool) : s.callStipend value ≤ s.callGas value := by
  unfold Schedule.callStipend Schedule.callGas
  split_ifs <;> simp_all

lemma bounds_caseCall (hx : Bounds x) (hy : Bounds y) (cost : Nat) (entered : Bool) (callGas : Nat) (value : Bool)
    (callee : Callee) : Bounds fun gas => caseCall s cost entered x y gas callGas value callee := by
  intro gas
  have := callStipend_le s value
  simp only [caseCall]
  split_ifs with hcost hentered
  · exact .idle (zero_le _)
  · exact (hy _).after_inner (bounded_callRC2 hx _ callee) (le_refl _) (by omega)
  · exact (hy _).after (by omega) (forall_mem_nil _) fun _ => by omega

lemma bounds_caseCreate (hx : Bounds x) (hy : Bounds y) {entered : Bool} {c : Creation} :
    Bounds fun gas => caseCreate s cost entered x y gas c := by
  intro gas
  simp only [caseCreate]
  split_ifs with hcost hentered
  · exact .idle (zero_le _)
  · have he := bounded_executeCreate (s := s) hx (gas - (s.createGas + cost) - (gas - (s.createGas + cost)) / 64) c
    have := he.gas_le
    exact (hy _).after_inner he (le_refl _) (by omega)
  · exact (hy _).after (by omega) (forall_mem_nil _) fun _ => by omega

lemma bounds_exec {code : Code} : Bounds (exec s code) := by
  induction code with
  | halt =>
    intro gas
    refine .idle ?_
    simp only [exec]
    split <;> omega
  | denied => exact fun gas => .idle (zero_le _)
  | instr cost sub rest ih =>
    intro gas
    simp only [exec]
    split
    · exact .idle (zero_le _)
    · exact (ih _).after (by omega) (forall_mem_nil _) fun _ => by omega
  | call cost entered callGas value callee body rest ihbody ihrest =>
    exact bounds_caseCall ihbody ihrest cost entered callGas value callee
  | create cost entered c body rest ihbody ihrest => exact bounds_caseCreate ihbody ihrest

lemma bounded_execute (s : Schedule) (txGasLimit baseGas : Nat) (frame : Frame) (body : Code) :
    (execute s txGasLimit baseGas frame body).Bounded (txGasLimit - baseGas) := by
  unfold execute
  split
  · exact .idle rfl rfl (zero_le _) (by simp)
  cases frame with
  | call accountFrozen callee =>
    dsimp only
    split
    · exact .idle rfl rfl (le_refl _) (by simp [fail])
    · exact bounded_callRC2 bounds_exec _ callee
  | create c => exact bounded_executeCreate bounds_exec _ c

end

/-- An inner execution that ran out of gas or failed returns nothing, any other at most what it was given, and the
instructions of the transaction cost at most its limit. -/
def Paid (txGasLimit : Nat) (e : Ended) : Prop :=
  (∀ i ∈ e.inner, (i.exit ≠ .settled → i.returned = 0) ∧ i.returned ≤ i.given) ∧ e.cost ≤ txGasLimit

/-- The first two parts of the claim say that every inner execution clears, and the third follows. -/
lemma paid_iff_clears {txGasLimit : Nat} (he : e.Bounded gas) (hgas : gas ≤ txGasLimit) :
    Paid txGasLimit e ↔ ∀ i ∈ e.inner, i.Clears := by
  refine ⟨fun h i hi hkept => (h.1 i hi).1 (by simp [hkept]), fun h => ⟨fun i hi => ⟨fun hexit => ?_, ?_⟩, ?_⟩⟩
  · cases hi' : i.exit with
    | settled => exact absurd hi' hexit
    | emptied => exact (he.body.returned i hi).2 hi'
    | kept => exact h i hi hi'
  · exact (he.body.returned i hi).1
  · have := he.body.cost_le h
    omega

/-- What comes back from an execution, unless some gas does although it was not enough. -/
def Progress.cleared (e : Progress) : Option Nat :=
  if e.exit = .kept ∧ 0 < e.gas then none else some e.gas

def Callee.runs (gas : Nat) : Callee → Bool
  | .code => gas ≤ 9223372036854775807
  | _ => false

def Creation.runs (gas : Nat) : Creation → Bool
  | .init => gas ≤ 9223372036854775807
  | _ => false

/-- An inner execution, which ends as `inner` says once the machine has its result, and the code after it. -/
def enter (runs : Bool) (inner : (Nat → Execution) → Ended) (body : Option Result) (rest : Nat → Option Result) :
    Option Result :=
  (if runs then body else some { status := .success }).bind fun r =>
    (inner fun _ => { toResult := r }).cleared.bind rest

/-- How the machine ends with this gas as long as every inner execution whose gas was not enough gives nothing back; `none`
from the first one on that does. -/
def solvent (s : Schedule) : Code → Nat → Option Result
  | .halt status output, gas => some ⟨status, if status = .success ∨ status = .revert then gas else 0, output⟩
  | .denied, _ => some { status := .revert }
  | .instr cost _ rest, gas => if gas < cost then some { status := .outOfGas } else solvent s rest (gas - cost)
  | .call cost entered callGas value callee body rest, gas =>
    let cost := s.callGas value + cost
    if gas < cost then some { status := .outOfGas }
    else
      let gas := gas - cost
      let callGas := min callGas (gas - gas / 64)
      let given := callGas + s.callStipend value
      if entered then
        enter (callee.runs given) (callRC2 s · given callee) (solvent s body given)
          fun left => solvent s rest (gas - callGas + left)
      else solvent s rest (gas - callGas + given)
  | .create cost entered c body rest, gas =>
    let cost := s.createGas + cost
    if gas < cost then some { status := .outOfGas }
    else
      let gas := gas - cost
      let given := gas - gas / 64
      if entered then
        enter (c.runs given) (executeCreate s · given c) (solvent s body given)
          fun left => solvent s rest (gas - (given - left))
      else solvent s rest gas

/-- The frame of the transaction reaches the machine. -/
def Frame.runs (s : Schedule) (gas : Nat) : Frame → Bool
  | .call accountFrozen callee => !(V2_5_0 ≤ s.version && accountFrozen) && callee.runs gas
  | .create c => c.runs gas

/-- The execution ends as the solvent one and all its inner executions clear, or one of them does not. -/
def Agrees (x : Execution) : Option Result → Prop
  | some r => x.toResult = r ∧ ∀ i ∈ x.inner, i.Clears
  | none => ∃ i ∈ x.inner, ¬i.Clears

lemma Progress.cleared_eq_none {p : Progress} : p.cleared = none ↔ ¬(p.exit = .kept → p.gas = 0) := by
  unfold cleared
  split_ifs
  all_goals grind

lemma Progress.cleared_eq_some {p : Progress} {n : Nat} : p.cleared = some n ↔ (p.exit = .kept → p.gas = 0) ∧ p.gas = n := by
  unfold cleared
  split_ifs
  all_goals grind

lemma Agrees.after {x : Execution} {r : Option Result} {inner : List Inner} (hx : Agrees x r)
    (hinner : ∀ i ∈ inner, i.Clears) : Agrees (x.after cost sub inner) r := by
  cases r with
  | some r => exact ⟨hx.1, forall_mem_append.mpr ⟨hinner, hx.2⟩⟩
  | none =>
    obtain ⟨i, hi, hkept⟩ := hx
    exact ⟨i, mem_append_right _ hi, hkept⟩

section

variable {s : Schedule} {x : Nat → Execution} {y : Execution} {inner : (Nat → Execution) → Ended} {runs : Bool}

/-- The inner executions are those of the machine, if it runs, and the rest depends on no more of it than its result. -/
structure Ends (runs : Bool) (x : Nat → Execution) (gas : Nat) (end_ : (Nat → Execution) → Ended) : Prop where
  inner : (end_ x).inner = if runs then (x gas).inner else []
  progress : ∀ r, (runs = true → (x gas).toResult = r) →
    (end_ x).toProgress = (end_ fun _ => { toResult := r }).toProgress

lemma ends_go : Ends (gas ≤ 9223372036854775807) x gas fun x => go s x gas isCreation where
  inner := by
    dsimp only [go]
    split_ifs
    all_goals grind
  progress r hr := by
    dsimp only [go]
    split
    · rfl
    · rw [← hr (by grind)]

lemma ends_callRC2 (callee : Callee) : Ends (callee.runs gas) x gas fun x => callRC2 s x gas callee := by
  cases callee with
  | code => exact ends_go
  | ethereumPrecompiled =>
    refine ⟨?_, fun _ _ => rfl⟩
    simp only [callRC2, Callee.runs, Bool.false_eq_true, if_false]
    split_ifs <;> rfl
  | precompiled result =>
    refine ⟨?_, fun _ _ => by cases result <;> rfl⟩
    cases result with
    | error => rfl
    | ok =>
      simp only [callRC2, Callee.runs, Bool.false_eq_true, if_false]
      split_ifs <;> rfl
  | _ => exact ⟨rfl, fun _ _ => rfl⟩

lemma ends_executeCreate (c : Creation) : Ends (c.runs gas) x gas fun x => executeCreate s x gas c := by
  cases c with
  | init => exact ends_go
  | _ => exact ⟨rfl, fun _ _ => rfl⟩

lemma Agrees.enter {r : Option Result} {rest : Nat → Option Result} (hend : Ends runs x gas inner)
    (hbody : Agrees (x gas) r) (hrest : Agrees y (rest (inner x).gas)) :
    Agrees (y.after cost sub ((inner x).inner ++ [⟨gas, (inner x).gas, (inner x).exit⟩])) (enter runs inner r rest) := by
  unfold Gas.enter
  cases hr : (if runs then r else some { status := .success } : Option Result) with
  | none =>
    -- the inner execution that does not clear is inside
    obtain ⟨rfl, rfl⟩ : runs = true ∧ r = none := by grind
    obtain ⟨i, hi, hkept⟩ := hbody
    refine ⟨i, mem_append_left _ (mem_append_left _ ?_), hkept⟩
    rwa [hend.inner]
  | some r' =>
    have hclears : ∀ i ∈ (inner x).inner, i.Clears := by
      rw [hend.inner]
      cases runs with
      | false => exact forall_mem_nil _
      | true =>
        obtain rfl : r = some r' := hr
        exact hbody.2
    have hprogress : (inner x).toProgress = (inner fun _ => { toResult := r' }).toProgress := by
      refine hend.progress r' fun hruns => ?_
      obtain rfl : r = some r' := by simpa [hruns] using hr
      exact hbody.1
    rw [Option.bind_some, ← hprogress]
    cases hleft : (inner x).cleared with
    | none => exact ⟨_, mem_append_left _ (mem_append_right _ (mem_singleton_self _)), cleared_eq_none.mp hleft⟩
    | some left =>
      obtain ⟨hthis, rfl⟩ := cleared_eq_some.mp hleft
      exact hrest.after (forall_mem_append.mpr ⟨hclears, forall_mem_singleton.mpr hthis⟩)

lemma agrees_exec (code : Code) : ∀ gas, Agrees (exec s code gas) (solvent s code gas) := by
  induction code with
  | halt => exact fun gas => ⟨rfl, forall_mem_nil _⟩
  | denied => exact fun gas => ⟨rfl, forall_mem_nil _⟩
  | instr cost sub rest ih =>
    intro gas
    simp only [exec, solvent]
    split
    · exact ⟨rfl, forall_mem_nil _⟩
    · exact (ih _).after (forall_mem_nil _)
  | call cost entered callGas value callee body rest ihbody ihrest =>
    intro gas
    simp only [exec, caseCall, solvent]
    split_ifs
    · exact ⟨rfl, forall_mem_nil _⟩
    · exact .enter (ends_callRC2 callee) (ihbody _) (ihrest _)
    · exact (ihrest _).after (forall_mem_nil _)
  | create cost entered c body rest ihbody ihrest =>
    intro gas
    simp only [exec, caseCreate, solvent]
    split_ifs
    · exact ⟨rfl, forall_mem_nil _⟩
    · exact .enter (ends_executeCreate c) (ihbody _) (ihrest _)
    · exact (ihrest _).after (forall_mem_nil _)

lemma Ends.clears_iff {code : Code} (hend : Ends runs (exec s code) gas inner) :
    (∀ i ∈ (inner (exec s code)).inner, i.Clears) ↔ (runs = true → (solvent s code gas).isSome = true) := by
  rw [hend.inner]
  cases runs with
  | false => simp
  | true =>
    have h := agrees_exec (s := s) code gas
    cases hr : solvent s code gas with
    | none =>
      rw [hr] at h
      obtain ⟨i, hi, hkept⟩ := h
      simpa using ⟨i, hi, hkept⟩
    | some r =>
      rw [hr] at h
      simpa using h.2

end

def calls (body : Code) : Nat → Code
  | 0 => .halt .success []
  | n + 1 => .call 0 true 60000 false .code body (calls body n)

def Schedule.refunds (s : Schedule) (sub : SubState) : Nat :=
  (sub.refunds + s.suicideRefundGas * sub.suicides.card) % 2 ^ 256

/-- `m_refunded`, from the gas field of the transaction. The subtraction is that of `u256`. -/
def refunded (s : Schedule) (txGas : Nat) (e : Ended) : Nat :=
  match e.ext with
  | none => 0
  | some sub => min ((txGas + 2 ^ 256 - e.gas) % 2 ^ 256 / 2) (s.refunds sub)

def finalize (s : Schedule) (txGas : Nat) (e : Ended) : Nat :=
  (e.gas + refunded s txGas e) % 2 ^ 256

def gasUsed (txGasLimit gas : Nat) : Nat :=
  (txGasLimit + 2 ^ 256 - gas) % 2 ^ 256

/-- The gas used is at most the limit, and the refund at most half of what was consumed before it. -/
def RefundCapped (s : Schedule) (txGasLimit txGas : Nat) (e : Ended) : Prop :=
  gasUsed txGasLimit (finalize s txGas e) ≤ txGasLimit ∧ 2 * refunded s txGas e ≤ txGasLimit - e.gas

/-- The cap of `finalize` keeps the refund within half of the gas consumed only if the gas field of the transaction is not
below what is left. -/
lemma refunded_le_iff {s : Schedule} {txGasLimit txGas : Nat} (hlimit : txGasLimit < 2 ^ 64) (htx : txGas < 2 ^ 256)
    (hgas : e.gas ≤ txGasLimit) : 2 * refunded s txGas e ≤ txGasLimit - e.gas ↔ ∀ sub ∈ e.ext,
      2 * s.refunds sub ≤ txGasLimit - e.gas ∨ e.gas ≤ txGas ∧ (txGas - e.gas) / 2 ≤ (txGasLimit - e.gas) / 2 := by
  unfold refunded
  cases e.ext with
  | none => simp
  | some sub =>
    simp only [Option.mem_def, Option.some.injEq, forall_eq']
    rcases le_or_gt e.gas txGas with hle | hlt
    · rw [show txGas + 2 ^ 256 - e.gas = txGas - e.gas + 2 ^ 256 by omega, add_mod_right, mod_eq_of_lt (by omega)]
      omega
    · rw [mod_eq_of_lt (by omega)]
      omega

def clearing : Nat → Code
  | 0 => .halt .success []
  | n + 1 => .instr 5000 { refunds := 15000 } (clearing n)

end Gas

end FiscoBcos
