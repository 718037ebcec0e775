import FiscoBcos.Precompiled.SystemTables

/-!
# The working sealers

`libprecompiled/WorkingSealerManagerImpl.cpp` under its wrapper `WorkingSealerManagerPrecompiled` and
`Executive::callRC2`.
-/

namespace FiscoBcos

abbrev Address :=
  Nat

/-- The context of the block being executed, with the number and the hash of the parent block, and the libraries behind
it. -/
structure ExecutiveContext where
  number : Int
  hash : Nat
  frozen : Address → Bool
  toAddress : NodeID → Address
  isValidVRFPublicKey : Nat → Bool
  verifyProof : Nat → Nat → Nat → Bool
  getHashFromProof : Nat → Nat
  /-- `u256(crypto::Hash(std::to_string(index)))` -/
  hashOfIndex : Nat → Nat

structure VRFInfo where
  vrfProof : Nat
  vrfPublicKey : Nat
  vrfInput : Nat
deriving DecidableEq

/-- What ends a call: an exception, or behaviour that C++ does not define. -/
inductive RotateError where
  | badLexicalCast
  | noVRFProof
  | invalidVRFInput
  | invalidVRFPublicKey
  | verifyProofFailed
  | permissionDenied
  | noNodeRecord
  | undefinedBehaviour
deriving DecidableEq

/-- `configuredEpochSealersSize` has no initial value: it is what the memory held. -/
structure WorkingSealerManagerImpl where
  origin : Address
  configuredEpochSealersSize : Int
  vrfInfo : Option VRFInfo := none
  pendingSealerList : List NodeID := []
  workingSealerList : List NodeID := []
  sealerListObtained : Bool := false
  notifyNextLeaderRotateSetted : Bool := false
deriving DecidableEq

structure NodeRotatingInfo where
  removedWorkingSealerNum : Int
  insertedWorkingSealerNum : Int
deriving DecidableEq

/-- The nodes that stop working and those that start. -/
structure SelectedNodes where
  removed : List NodeID := []
  inserted : List NodeID := []
deriving DecidableEq

namespace WorkingSealerManagerImpl

variable (ctx : ExecutiveContext)

def createVRFInfo (vrfInfo : VRFInfo) (m : WorkingSealerManagerImpl) : WorkingSealerManagerImpl :=
  { m with vrfInfo := some vrfInfo }

variable (m : WorkingSealerManagerImpl) (s : TableFactory)

def getSealerList : WorkingSealerManagerImpl :=
  if m.sealerListObtained then m
  else
    { m with
      pendingSealerList := getNodeListByType ctx.number .sealer s.nodeRows
      workingSealerList := getNodeListByType ctx.number .workingSealer s.nodeRows
      sealerListObtained := true }

def lexicalCast (text : FieldText) : Except RotateError Int :=
  match text.toInt64 with
  | some n => .ok n
  | none => .error .badLexicalCast

def getConfig (key : ConfigKey) (s : TableFactory) : Except RotateError (FieldText × Int) :=
  match getSysteConfigByKey key ctx.number s.configRows with
  | some info => .ok info
  | none => .error .badLexicalCast

def sealersNum : Int :=
  m.workingSealerList.length + m.pendingSealerList.length

def notifyRotateFlag : Except RotateError Bool := do
  let notifyRotateFlagInfo ← getConfig ctx .notifyRotate s
  if notifyRotateFlagInfo.1 ≠ .empty then
    let flag ← lexicalCast notifyRotateFlagInfo.1
    return decide (flag ≠ 0)
  else return false

/-- The rest of `shouldRotate`, with the epoch size read, in force since `enableNumber`. -/
def epochEnds (enableNumber : Int) (m : WorkingSealerManagerImpl) (s : TableFactory) :
    Except RotateError (WorkingSealerManagerImpl × Bool) := do
  if enableNumber = ctx.number then return (m, true)
  let m := m.getSealerList ctx s
  if (m.workingSealerList.length : Int) < min m.configuredEpochSealersSize m.sealersNum then
    return (m, true)
  let epochBlockInfo ← getConfig ctx .epochBlockNum s
  let epochBlockNum ← lexicalCast epochBlockInfo.1
  if epochBlockNum = 0 then throw .undefinedBehaviour
  return (m, decide ((ctx.number - epochBlockInfo.2).tmod epochBlockNum = 0))

def shouldRotate : Except RotateError (WorkingSealerManagerImpl × Bool) := do
  let setted ← notifyRotateFlag ctx s
  let m := { m with notifyNextLeaderRotateSetted := setted }
  if setted then return (m, true)
  let epochSealersInfo ← getConfig ctx .epochSealerNum s
  let configuredEpochSealersSize ← lexicalCast epochSealersInfo.1
  epochEnds ctx epochSealersInfo.2 { m with configuredEpochSealersSize := configuredEpochSealersSize } s

def checkPermission : Bool :=
  m.workingSealerList.any fun node => ctx.toAddress node = m.origin

def checkVRFInfos : Except RotateError WorkingSealerManagerImpl :=
  match m.vrfInfo with
  | none => .error .noVRFProof
  | some info =>
    if info.vrfInput ≠ ctx.hash then .error .invalidVRFInput
    else if ctx.isValidVRFPublicKey info.vrfPublicKey = false then .error .invalidVRFPublicKey
    else if ctx.verifyProof info.vrfPublicKey info.vrfInput info.vrfProof = false then
      .error .verifyProofFailed
    else
      let m := m.getSealerList ctx s
      if m.workingSealerList.length > 0 ∧ m.checkPermission ctx = false then .error .permissionDenied
      else .ok m

def tryToResetNotifyNextLeaderFlag : TableFactory :=
  if m.notifyNextLeaderRotateSetted then
    setSystemConfigByKey .notifyRotate (.number 0) (ctx.number + 1) s
  else s

def calNodeRotatingInfo : NodeRotatingInfo :=
  let epochSize := min m.configuredEpochSealersSize m.sealersNum
  let workingSealersNum : Int := m.workingSealerList.length
  if workingSealersNum > epochSize then
    { removedWorkingSealerNum := workingSealersNum - epochSize, insertedWorkingSealerNum := 0 }
  else if workingSealersNum < epochSize then
    { removedWorkingSealerNum := 0, insertedWorkingSealerNum := epochSize - workingSealersNum }
  else if m.sealersNum = workingSealersNum then
    { removedWorkingSealerNum := 0, insertedWorkingSealerNum := 0 }
  else { removedWorkingSealerNum := 1, insertedWorkingSealerNum := 1 }

def swap (nodes : List NodeID) (i j : Nat) : List NodeID :=
  if h : i < nodes.length ∧ j < nodes.length then
    (nodes.set i (nodes.get ⟨j, h.2⟩)).set j (nodes.get ⟨i, h.1⟩)
  else nodes

def shuffle : Nat → Nat → List NodeID → List NodeID
  | 0, _, nodes => nodes
  | i + 1, proofHashValue, nodes =>
    let selectedIdx := proofHashValue % (i + 2)
    shuffle i (ctx.hashOfIndex selectedIdx) (swap nodes (i + 1) selectedIdx)

def selectNodesFromList (proofHash : Nat) (nodeList : List NodeID) (selectedNode : Int) :
    Except RotateError (List NodeID) :=
  let shuffled := shuffle ctx (nodeList.length - 1) proofHash (nodeList.insertionSort (· ≤ ·))
  if selectedNode ≤ shuffled.length then .ok (shuffled.take selectedNode.toNat)
  else .error .undefinedBehaviour

def updateNodeType (node : NodeID) (nodeType : NodeType) (s : TableFactory) : Except RotateError TableFactory :=
  if (s.nodeRows.filter fun row => row.nodeId = node).isEmpty then .error .noNodeRecord
  else .ok (s.update .consensus (fun row => row.nodeId = node)
    fun row => { row with type := nodeType, enableNum := .number (ctx.number + 1) })

abbrev Outcome (α : Type) :=
  Except RotateError α × TableFactory

def updateNodeTypes (nodeType : NodeType) : List NodeID → TableFactory → Outcome Unit
  | [], s => (.ok (), s)
  | node :: nodes, s =>
    match updateNodeType ctx node nodeType s with
    | .error e => (.error e, s)
    | .ok s => updateNodeTypes nodeType nodes s

/-- One of the two rotations of `rotateWorkingSealer`: `count` nodes of the list get another type. -/
def rotateNodes (nodeList : List NodeID) (count : Int)
    (nodeType : NodeType) (s : TableFactory) : Outcome (List NodeID) :=
  if count > 0 then
    match m.vrfInfo with
    | none => (.error .undefinedBehaviour, s)
    | some info =>
      match selectNodesFromList ctx (ctx.getHashFromProof info.vrfProof) nodeList count with
      | .error e => (.error e, s)
      | .ok nodes =>
        match updateNodeTypes ctx nodeType nodes s with
        | (.error e, s) => (.error e, s)
        | (.ok (), s) => (.ok nodes, s)
  else (.ok [], s)

def rotateSealers : Outcome SelectedNodes :=
  if m.sealersNum ≤ 1 ∨ (m.configuredEpochSealersSize = m.sealersNum ∧ m.pendingSealerList.length = 0) then
    (.ok {}, s)
  else
    let info := m.calNodeRotatingInfo
    match m.rotateNodes ctx m.workingSealerList info.removedWorkingSealerNum .sealer s with
    | (.error e, s) => (.error e, s)
    | (.ok removed, s) =>
      match m.rotateNodes ctx m.pendingSealerList info.insertedWorkingSealerNum .workingSealer s with
      | (.error e, s) => (.error e, s)
      | (.ok inserted, s) => (.ok { removed := removed, inserted := inserted }, s)

def rotateWorkingSealer : Outcome SelectedNodes :=
  match m.shouldRotate ctx s with
  | .error e => (.error e, s)
  | .ok (_, false) => (.ok {}, s)
  | .ok (m, true) =>
    match m.checkVRFInfos ctx s with
    | .error e => (.error e, setSystemConfigByKey .notifyRotate (.number 1) (ctx.number + 1) s)
    | .ok m => m.rotateSealers ctx (m.tryToResetNotifyNextLeaderFlag ctx s)

end WorkingSealerManagerImpl

/-- A transaction that calls `rotateWorkingSealer`, and what the memory of the manager that will be made for it holds
where `m_configuredEpochSealersSize` is to be. -/
structure RotateTx where
  origin : Address
  vrfPublicKey : Nat
  vrfInput : Nat
  vrfProof : Nat
  memory : Int
deriving DecidableEq

variable (ctx : ExecutiveContext) (tx : RotateTx) (s : TableFactory)

namespace WorkingSealerManagerPrecompiled

open WorkingSealerManagerImpl

def manager : WorkingSealerManagerImpl :=
  createVRFInfo { vrfProof := tx.vrfProof, vrfPublicKey := tx.vrfPublicKey, vrfInput := tx.vrfInput }
    { origin := tx.origin, configuredEpochSealersSize := tx.memory }

/-- Any exception is thrown on as a `PrecompiledException`. -/
def rotateWorkingSealer : Outcome SelectedNodes :=
  (manager tx).rotateWorkingSealer ctx s

end WorkingSealerManagerPrecompiled

/-- `Executive::callRC2` of a call of the precompiled contract: an exception rolls the tables back to the savepoint. -/
def callRC2 (tx : RotateTx) : Option TableFactory :=
  let tableFactorySavepoint := s.savepoint
  if ctx.frozen tx.origin then some (s.rollback tableFactorySavepoint)
  else
    match WorkingSealerManagerPrecompiled.rotateWorkingSealer ctx tx s with
    | (.ok _, s) => some s
    | (.error .undefinedBehaviour, _) => none
    | (.error _, s) => some (s.rollback tableFactorySavepoint)

end FiscoBcos
