import Mathlib.Data.Finset.Sort
import FiscoBcos.Chain.Block

/-!
# The rotating engine

`libconsensus/rotating_pbft/RotatingPBFTEngine.cpp`: the choice of the consensus nodes from the sealer list. Where the C++
has no defined result the functions give `none`.
-/

namespace FiscoBcos

/-- What the engine reads of the chain. -/
structure RotatingChain where
  number : Int
  sealers : List NodeID
  epochSealerNum : Int
  epochBlockNum : Int
  epochBlockEnable : Int
  number_nonneg : 0 ≤ number
  sealers_ne : sealers ≠ []
  sealers_nodup : sealers.Nodup
  epochSealerNum_pos : 0 < epochSealerNum
  epochBlockNum_pos : 0 < epochBlockNum
  enable_le : epochBlockEnable ≤ number + 1
deriving DecidableEq

/-- `chain` is the chain as `resetConfig` last read it; `highestBlock` is the number of `m_highestBlock`. -/
structure RotatingPBFTEngine where
  keyPair : NodeID
  chain : RotatingChain
  sealerList : List NodeID
  lastSealerListUpdateNumber : Int
  sealerListUpdated : Bool := true
  highestBlock : Int := 0
  epochSize : Int := -1
  rotatingInterval : Int := -1
  startNodeIdx : Int := -1
  rotatingRound : Int := 0
  sealersNum : Int := 0
  locatedInConsensusNodes : Bool := true
  chosedConsNodeChanged : Bool := false
  chosedConsensusNodes : Finset NodeID := ∅
  chosedSealerList : List NodeID := []
  rotatingIntervalEnableNumber : Int := -1
  rotatingIntervalUpdated : Bool := false
  f : Nat := 0
deriving DecidableEq

variable (s : RotatingPBFTEngine) (chain : RotatingChain) (keyPair : NodeID) (sealers : List NodeID)

namespace RotatingPBFTEngine

def toIdx (v : Int) : Nat :=
  (v % 2 ^ 16).toNat

def sorted (l : List NodeID) : List NodeID :=
  l.insertionSort (· ≤ ·)

def updateConsensusNodeList : RotatingPBFTEngine :=
  let sealerList := sorted s.chain.sealers
  if sealerList ≠ s.sealerList then
    { s with sealerList := sealerList, sealerListUpdated := true
             lastSealerListUpdateNumber := s.chain.number }
  else if s.chain.number ≠ s.lastSealerListUpdateNumber then { s with sealerListUpdated := false }
  else s

def setEpochSealerNum (epochSize : Int) (s : RotatingPBFTEngine) : RotatingPBFTEngine :=
  { s with epochSize := if epochSize > s.sealersNum then s.sealersNum else epochSize }

def updateEpochSize : RotatingPBFTEngine × Bool :=
  let epoch := s.chain.epochSealerNum
  if epoch = s.epochSize then (s, false)
  else
    let s' := s.setEpochSealerNum epoch
    (s', s.epochSize ≠ s'.epochSize)

def updateRotatingInterval : RotatingPBFTEngine × Bool :=
  if s.chain.epochBlockNum = s.rotatingInterval ∧
      s.chain.epochBlockEnable = s.rotatingIntervalEnableNumber then (s, false)
  else
    ({ s with rotatingInterval := s.chain.epochBlockNum
              rotatingIntervalEnableNumber := s.chain.epochBlockEnable }, true)

def currentRound : Int :=
  (s.chain.number - s.rotatingIntervalEnableNumber).tdiv s.rotatingInterval

/-- The index is converted to a `size_t`; the empty node id stands for an index outside of the list. -/
def getNodeIDByIndex (index : Int) : NodeID :=
  if index < 0 then 0 else s.sealerList.getD index.toNat 0

def collectNodes (sealerList : List NodeID) (sealersNum : Int) : Nat → Int → Finset NodeID → Option (Finset NodeID)
  | 0, _, nodes => some nodes
  | k + 1, idx, nodes =>
    if idx < 0 then none
    else
      (sealerList[idx.toNat]?).bind fun node =>
        collectNodes sealerList sealersNum k ((idx + 1).tmod sealersNum) (insert node nodes)

def firstSetUp : RotatingPBFTEngine :=
  if s.startNodeIdx = -1 then { s with rotatingRound := s.currentRound } else s

def rechooseNodes : Option RotatingPBFTEngine :=
  let s := { s with startNodeIdx := s.rotatingRound.tmod s.sealersNum }
  (collectNodes s.sealerList s.sealersNum s.epochSize.toNat s.startNodeIdx ∅).map fun nodes =>
    if nodes ≠ s.chosedConsensusNodes then
      { s with chosedConsensusNodes := nodes, chosedConsNodeChanged := true }
    else s

def resetChosedConsensusNodes : Option RotatingPBFTEngine :=
  let s := if s.sealerListUpdated then { s with sealersNum := s.sealerList.length } else s
  let (s, epochUpdated) := s.updateEpochSize
  if epochUpdated = false ∧ s.sealerListUpdated = false ∧ s.rotatingIntervalUpdated = false then some s
  else if s.sealersNum = 0 then none
  else if s.rotatingInterval = -1 ∨ s.epochSize = -1 then some s
  else s.firstSetUp.rechooseNodes

/-- The rest of `chooseConsensusNodes` once a rotation is due: one node out, one node in. -/
def rotateNodes : RotatingPBFTEngine :=
  let chosedOutNodeId := s.getNodeIDByIndex (s.rotatingRound.tmod s.sealersNum)
  let rotatingRound := s.rotatingRound + 1
  let startNodeIdx := rotatingRound.tmod s.sealersNum
  let epochSize := min s.epochSize s.sealersNum
  let chosedInNodeIdx := toIdx ((startNodeIdx + epochSize - 1).tmod s.sealersNum)
  let chosedInNodeId := s.getNodeIDByIndex chosedInNodeIdx
  { s with
    chosedConsensusNodes := insert chosedInNodeId (s.chosedConsensusNodes.erase chosedOutNodeId)
    chosedConsNodeChanged := true
    rotatingRound := rotatingRound
    startNodeIdx := startNodeIdx }

def chooseConsensusNodes : Option RotatingPBFTEngine :=
  if s.rotatingInterval = -1 ∨ s.epochSize = -1 then some s
  else
    let consensusRound := s.chain.number - s.rotatingIntervalEnableNumber - s.rotatingRound * s.rotatingInterval
    if consensusRound < s.rotatingInterval then some s
    else if s.sealersNum = 0 then none
    else some s.rotateNodes

def updateConsensusInfo : RotatingPBFTEngine :=
  if s.chosedConsNodeChanged then
    let s := if s.chosedConsensusNodes.card > 0 then
      { s with chosedSealerList := s.chosedConsensusNodes.sort (· ≤ ·) } else s
    { s with chosedConsNodeChanged := false }
  else s

def resetLocatedInConsensusNodes : RotatingPBFTEngine :=
  { s with locatedInConsensusNodes := s.keyPair ∈ s.chosedConsensusNodes }

def refresh (s : RotatingPBFTEngine) : RotatingPBFTEngine :=
  let s := updateConsensusNodeList { s with chain := chain }
  let (s, updated) := s.updateRotatingInterval
  let s := { s with rotatingIntervalUpdated := updated }
  if updated then { s with rotatingRound := s.currentRound } else s

def resetConfig (s : RotatingPBFTEngine) : Option RotatingPBFTEngine := do
  let s ← (s.refresh chain).resetChosedConsensusNodes
  let s := { s with f := toIdx (min ((s.epochSize - 1).tdiv 3) ((s.sealersNum - 1).tdiv 3)) }
  let s ← s.chooseConsensusNodes
  return s.updateConsensusInfo.resetLocatedInConsensusNodes

def reportBlock (number : Int) (s : RotatingPBFTEngine) : Option RotatingPBFTEngine :=
  if chain.number = 0 ∨ s.highestBlock < number then
    { s with highestBlock := number }.resetConfig chain
  else some s

def selectLeader (view : Int) (s : RotatingPBFTEngine) : Nat :=
  toIdx ((s.startNodeIdx + (view + s.highestBlock).tmod s.epochSize).tmod s.sealersNum)

def minValidNodes : Nat :=
  toIdx (min s.epochSize s.sealersNum - s.f)

inductive Call where
  | resetConfig (chain : RotatingChain)
  | reportBlock (chain : RotatingChain) (number : Int)

def call (s : Option RotatingPBFTEngine) (c : Call) : Option RotatingPBFTEngine :=
  s.bind fun s =>
    match c with
    | .resetConfig chain => s.resetConfig chain
    | .reportBlock chain number => s.reportBlock chain number

variable (chain : RotatingChain)

/-- The constructor. `sealers` is the list of the group's configuration file. -/
def construct : RotatingPBFTEngine :=
  { keyPair := keyPair, chain := chain, sealerList := sorted sealers
    lastSealerListUpdateNumber := chain.number }

def start : Option RotatingPBFTEngine :=
  (construct keyPair sealers chain).reportBlock chain chain.number

end RotatingPBFTEngine

end FiscoBcos
