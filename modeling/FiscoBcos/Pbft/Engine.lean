import FiscoBcos.Chain.BlockChain
import FiscoBcos.Pbft.ReqCache

/-!
# The state of the PBFT engine and its checks

The data members of `ConsensusEngineBase`, `PBFTEngine` and `TimeManager`. `log` and `calls` are not members of the
source: they list, newest first, what the engine has done and the proposals it has started to execute.
-/

namespace FiscoBcos

structure TimeManager where
  emptyBlockGenTime : Nat := 1000
  viewTimeout : Nat := 3000
  consensusTimeout : Nat := 3000
  changeCycle : Nat := 0
  lastSignTime : Nat := 0
  lastConsensusTime : Nat := 0
  lastAddRawPrepareTime : Nat := 0
  lastExecTime : Nat := 0
  lastGarbageCollection : Nat := 0
deriving DecidableEq

variable (t : TimeManager)

namespace TimeManager

def kMaxChangeCycle : Nat := 20

-- `CollectInterval`, in milliseconds
def collectInterval : Nat := 60000

def changeView : TimeManager :=
  { t with lastConsensusTime := 0, lastSignTime := 0 }

def updateChangeCycle : TimeManager :=
  { t with changeCycle := min (t.changeCycle + 1) kMaxChangeCycle }

def isTimeout (now : Nat) : Bool :=
  let maxConsensusTime := max t.lastConsensusTime t.lastSignTime
  let waiting := decide (maxConsensusTime < t.lastAddRawPrepareTime) &&
    (t.lastConsensusTime != 0 || t.lastSignTime != 0)
  let executing := waiting && decide (t.lastExecTime < t.lastAddRawPrepareTime)
  let viewTimeOut := if executing then t.consensusTimeout else t.viewTimeout
  let last :=
    if executing then t.lastAddRawPrepareTime
    else if waiting then t.lastExecTime
    else maxConsensusTime
  -- `viewTimeOut * 1.5 ^ changeCycle`, and an unsigned 64-bit subtraction
  let interval := viewTimeOut * 3 ^ t.changeCycle / 2 ^ t.changeCycle
  decide (interval ≤ (now + (2 ^ 64 - last)) % 2 ^ 64)

end TimeManager

/-- What a count of votes looked at: the executed proposal, the requests cached for its hash, the sealer list and the
quorum. -/
structure Tally where
  prepared : PrepareReq
  votes : List PBFTMsg
  sealers : List NodeID
  minValidNodes : Nat
deriving DecidableEq

/-- What a change of the view looked at: the view changed to, the requests cached for it, the highest block, the sealer
list, the node's own index and the quorum. -/
structure ViewTally where
  view : Int
  votes : List ViewChangeReq
  highestBlock : BlockHeader
  sealers : List NodeID
  idx : Nat
  minValidNodes : Nat
deriving DecidableEq

/-- A call of `execPrepareAndGenerateSignMsg` and what the engine was working on at that moment. -/
structure ExecCall where
  req : PrepareReq
  consensusBlockNumber : Int
  view : Int
  leader : Option Nat
  sealers : List NodeID
deriving DecidableEq

inductive Action where
  | execBlock (req : PrepareReq) (b : Block)
  | broadcastPrepareReq (req : PrepareReq)
  | broadcastSignReq (req : SignReq) (proposal : PrepareReq)
  | updateCommittedPrepare (tally : Tally) (raw : PrepareReq)
  | enqueueBackup
  | broadcastCommitReq (req : CommitReq) (proposal : Option PrepareReq)
  | commitBlock (tally : Tally) (b : Block) (result : CommitResult)
  /-- to one node that lags behind, or to all (`none`) -/
  | sendViewChangeReq (req : ViewChangeReq) (target : Option NodeID)
  | changeView (tally : ViewTally)
  | reportBlock (number : Int)
  | syncBlock (b : Block)
deriving DecidableEq

structure PBFTEngine where
  keyPair : NodeID
  omitEmptyBlock : Bool := true
  allowFutureBlocks : Bool := true
  enablePrepareWithTxsHash : Bool := false
  supportConsensusTimeAdjust : Bool := false
  maxBlockTransactions : Nat := 1000
  sealerList : List NodeID := []
  nodeNum : Nat := 0
  f : Nat := 0
  idx : Nat := 0
  cfgErr : Bool := false
  consensusBlockNumber : Int := 0
  highestBlock : BlockHeader := {}
  view : Int := 0
  toView : Int := 0
  leaderFailed : Bool := false
  notifyNextLeaderSeal : Bool := false
  fastViewChange : Bool := false
  timeManager : TimeManager := {}
  reqCache : PBFTReqCache := {}
  blockChain : BlockChain
  log : List Action := []
  calls : List ExecCall := []

/-- What a handler reads from outside the engine: the clocks, the stamps of the requests it makes, the state of the
block sync and of the block verifier, the transaction pool, and the chain's system tables. -/
structure Ambient where
  utcTime : Nat := 0
  steadyTime : Nat := 0
  prepareStamp : Stamp := {}
  executedStamp : Stamp := {}
  signStamp : Stamp := {}
  commitStamp : Stamp := {}
  viewChangeStamp : Stamp := {}
  blockNumberFarBehind : Bool := false
  isSyncing : Bool := false
  knownHighestNumber : Int := 0
  executingNumber : Int := 0
  pool : Hash → Option Bytes := fun _ => none
  sealerList : List NodeID := []
  txCountLimit : Nat := 1000
  consensusTimeout : Nat := 3000

variable (s : PBFTEngine) (E : Env) (amb : Ambient) (sealers : List NodeID) (req : PBFTMsg) (idx : Nat)

inductive CheckResult where
  | VALID
  | INVALID
  | FUTURE
deriving DecidableEq

def getSealerByIndex : NodeID :=
  sealers.getD idx 0

def checkSignature (h : Hash) (sig : Bytes) : Bool :=
  getSealerByIndex sealers idx != 0 && E.verify (getSealerByIndex sealers idx) sig h

def checkSign : Bool :=
  getSealerByIndex sealers req.idx != 0 && (E.verify (getSealerByIndex sealers req.idx) req.sig req.blockHash &&
      E.verify (getSealerByIndex sealers req.idx) req.sig2 (req.fieldsWithoutBlock E))

namespace PBFTEngine

def note (a : Action) : PBFTEngine :=
  { s with log := a :: s.log }

def minValidNodes : Nat :=
  s.nodeNum - s.f

def getLeader : Option Nat :=
  if s.cfgErr || s.leaderFailed || s.highestBlock.sealer == Invalid256 || s.nodeNum == 0 then none
  else some ((s.view + s.highestBlock.number) % s.nodeNum).toNat

def getNextLeader : Nat :=
  ((s.highestBlock.number + 1) % s.nodeNum).toNat

def isSyncingHigherBlock : Bool :=
  amb.blockNumberFarBehind || (amb.isSyncing && decide (req.height ≤ amb.knownHighestNumber))

def hasConsensused : Bool :=
  decide (req.height < s.consensusBlockNumber ∨ (req.height = s.consensusBlockNumber ∧ req.view < s.view))

def isFutureBlock : Bool :=
  decide (s.consensusBlockNumber ≤ req.height ∨ s.view < req.view)

def isFuturePrepare (req : PrepareReq) : Bool :=
  decide (s.consensusBlockNumber < req.height ∨ (req.height = s.consensusBlockNumber ∧ s.view < req.view))

def isHashSavedAfterCommit (req : PrepareReq) : Bool :=
  !decide (req.height = s.reqCache.committedPrepareCache.height ∧
    req.blockHash ≠ s.reqCache.committedPrepareCache.blockHash)

def isValidLeader (req : PrepareReq) : Bool :=
  s.getLeader == some req.idx

variable (s : PBFTEngine)

def isValidPrepare (req : PrepareReq) : CheckResult :=
  if s.reqCache.isExistPrepare req then .INVALID
  else if isSyncingHigherBlock amb req.toPBFTMsg then .INVALID
  else if s.hasConsensused req.toPBFTMsg then .INVALID
  -- the lock is not consulted for a proposal flagged as empty
  else if !req.isEmpty && !s.isHashSavedAfterCommit req then .INVALID
  else if s.isFuturePrepare req then .FUTURE
  else if !s.isValidLeader req then .INVALID
  else if !checkSign E s.sealerList req.toPBFTMsg then .INVALID
  else .VALID

def checkReq (req : PBFTMsg) : CheckResult :=
  if isSyncingHigherBlock amb req then .INVALID
  else if s.reqCache.prepareCache.blockHash ≠ req.blockHash then
    if s.isFutureBlock req then .FUTURE else .INVALID
  else if req.idx = s.idx then .INVALID
  else if s.reqCache.prepareCache.view ≠ req.view then .INVALID
  else if !checkSign E s.sealerList req then .INVALID
  else .VALID

-- what `checkReq` writes into a future request
def asFuture : PBFTMsg :=
  { req with isFuture := true, signChecked := false }

def resetConsensusTimeout : PBFTEngine :=
  if s.supportConsensusTimeAdjust then
    let t := s.timeManager
    let t := if amb.consensusTimeout < t.emptyBlockGenTime then
      { t with emptyBlockGenTime := amb.consensusTimeout / 3 } else t
    let t := if t.viewTimeout ≠ amb.consensusTimeout then
      { t with consensusTimeout := amb.consensusTimeout } else t
    { s with timeManager := t }
  else s

/-- `resetConfig`: sealers, quorum sizes and the node's own index, all narrowed to `IDXTYPE`. With no sealer left the
process is told to exit. -/
def resetConfig : PBFTEngine :=
  let sealers := amb.sealerList.insertionSort (· ≤ ·)
  if sealers = [] then s
  else
    let nodeNum := sealers.length % (MAXIDX + 1)
    let nodeIdx :=
      if s.keyPair ∈ sealers then sealers.idxOf s.keyPair % (MAXIDX + 1) else MAXIDX
    resetConsensusTimeout amb { s with
        maxBlockTransactions := amb.txCountLimit
        sealerList := sealers
        nodeNum := nodeNum
        f := (nodeNum - 1) / 3
        cfgErr := nodeIdx == MAXIDX
        idx := nodeIdx }

/-- `checkBlock`, the test block sync puts a fetched block to. It refreshes the configuration. -/
def checkBlock (b : Block) : Bool × PBFTEngine :=
  if b.header.number ≤ s.blockChain.number then (false, s)
  else
    let s := s.resetConfig amb
    if b.header.number = 0 then (true, s)
    else if s.sealerList ≠ b.header.sealerList then (false, s)
    else if getSealerByIndex s.sealerList (b.header.sealer % 2 ^ 64) = 0 then (false, s)
    else if b.sigList.length < s.minValidNodes then (false, s)
    else if !b.sigList.all (fun q =>
        checkSignature E s.sealerList (q.1 % (MAXIDX + 1)) (b.hash E) q.2) then (false, s)
    else if s.maxBlockTransactions < b.transactions.length then (false, s)
    else (true, s)

def checkBlockValid (b : Block) : Bool :=
  decide (b.transactions.length ≤ s.maxBlockTransactions) &&
    (decide (b.header.timestamp ≤ amb.utcTime) || s.allowFutureBlocks) &&
    decide (s.blockChain.number < b.header.number) &&
    (s.blockChain.getBlockByHash E b.header.parentHash).isSome &&
    (decide (b.header.number ≤ 1) || s.blockChain.numberHash E (b.header.number - 1) == b.header.parentHash) &&
    s.sealerList == b.header.sealerList

end PBFTEngine

end FiscoBcos
