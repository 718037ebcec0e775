import FiscoBcos.Pbft.Engine

/-!
# The handlers of the PBFT engine

Every function of `PBFTEngine.cpp` that changes the state of the engine, and `step`, which runs the handler of one event.
The handlers hold `m_mutex`.
-/

namespace FiscoBcos

namespace PBFTEngine

section

variable (E : Env) (s : PBFTEngine)

def sigCacheSize : Nat × PBFTEngine :=
  let q := s.reqCache.getSigCacheSize (checkSign E s.sealerList) s.reqCache.prepareCache.blockHash s.minValidNodes
  (q.1, { s with reqCache := q.2 })

def commitCacheSize : Nat × PBFTEngine :=
  let q := s.reqCache.getCommitCacheSize (checkSign E s.sealerList) s.reqCache.prepareCache.blockHash s.minValidNodes
  (q.1, { s with reqCache := q.2 })

def signTally : Tally where
  prepared := s.reqCache.prepareCache
  votes := s.reqCache.signCache.bucket s.reqCache.prepareCache.blockHash
  sealers := s.sealerList
  minValidNodes := s.minValidNodes

def commitTally : Tally where
  prepared := s.reqCache.prepareCache
  votes := s.reqCache.commitCache.bucket s.reqCache.prepareCache.blockHash
  sealers := s.sealerList
  minValidNodes := s.minValidNodes

/-- The part of `checkAndSave` behind its guards: the signature list goes into the block and the block to the chain. -/
def saveBlock (b : Block) : PBFTEngine :=
  let b := s.reqCache.generateAndSetSigList b s.minValidNodes
  let q := s.blockChain.commitBlock E b
  let s := { s with
    blockChain := q.2
    reqCache := { s.reqCache with
      prepareCache := { s.reqCache.prepareCache with pBlock := some b } } }.note
    (.commitBlock s.commitTally b q.1)
  if q.1 = .OK then { s with reqCache := s.reqCache.delCache E b.header } else s

def checkAndSave : PBFTEngine :=
  let signs := s.sigCacheSize E
  let commits := signs.2.commitCacheSize E
  let s := commits.2
  if s.minValidNodes ≤ signs.1 ∧ s.minValidNodes ≤ commits.1 then
    if s.reqCache.prepareCache.view ≠ s.view then s
    else if s.reqCache.prepareCache.height ≤ s.highestBlock.number then s
    else
      match s.reqCache.prepareCache.pBlock with
      | none => s
      | some b => s.saveBlock E b
  else s

variable (amb : Ambient) (s : PBFTEngine)

def broadcastSignReq (proposal : PrepareReq) : PBFTEngine :=
  let req := s.reqCache.prepareCache.vote E s.keyPair s.idx amb.signStamp
  { s with reqCache := s.reqCache.addSignReq req }.note (.broadcastSignReq req proposal)

def broadcastCommitReq : PBFTEngine :=
  let req := s.reqCache.prepareCache.vote E s.keyPair s.idx amb.commitStamp
  { s with reqCache := s.reqCache.addCommitReq req }.note (.broadcastCommitReq req s.reqCache.proposal)

def lockAndVote : PBFTEngine :=
  let t := s.signTally
  let s := { s with reqCache := s.reqCache.updateCommittedPrepare }.note
    (.updateCommittedPrepare t s.reqCache.rawPrepareCache)
  let s := (s.note .enqueueBackup).broadcastCommitReq E amb
  { s with timeManager := { s.timeManager with lastSignTime := amb.steadyTime } }

def checkAndCommit : PBFTEngine :=
  let q := s.sigCacheSize E
  let s := q.2
  if q.1 = s.minValidNodes then
    if s.reqCache.prepareCache.view ≠ s.view then s
    else (s.lockAndVote E amb).checkAndSave E
  else s

end

section

variable (E : Env) (amb : Ambient)

inductive ExecResult where
  | failed
  | omitted
  | executed (b : Block) (result : Block) (context : Bool)

-- a request of the node's own carries its block, one from the network has to be decoded
def proposedBlock (req : PrepareReq) : Option Block :=
  match req.pBlock with
  | some b => some b
  | none => E.decodeBlock req.block

variable (s : PBFTEngine)

def notifySealing : PBFTEngine :=
  if s.getLeader.any (fun i => i != s.idx) && s.idx == s.getNextLeader then
    { s with notifyNextLeaderSeal := true }
  else s

def execBlock (req : PrepareReq) : ExecResult × PBFTEngine :=
  match proposedBlock E req with
  | none => (.failed, s)
  | some b =>
    if b.transactions = [] ∧ s.omitEmptyBlock then (.omitted, s)
    else if !s.checkBlockValid E amb b then (.failed, s)
    else
      let s := if req.idx ≠ s.idx then s.notifySealing else s
      if !E.verifySenders b.transactions then (.failed, s)
      else
        let q := executeBlock E amb.executingNumber (s.blockChain.headInfo E) b
        (.executed b q.1 q.2, s)

def changeViewForFastViewChange : PBFTEngine :=
  { s with timeManager := s.timeManager.changeView, fastViewChange := true }

section

variable (req : PrepareReq)

def generateSignMsg (result : Block) (context : Bool) : PBFTEngine :=
  let prepared := req.executed E s.keyPair result context amb.executedStamp
  let s := { s with reqCache := s.reqCache.addPrepareReq req prepared }
  (s.broadcastSignReq E amb req).checkAndCommit E amb

def noteCall : PBFTEngine :=
  { s with
    calls := ⟨req, s.consensusBlockNumber, s.view, s.getLeader, s.sealerList⟩ :: s.calls }

def execPrepareAndGenerateSignMsg : PBFTEngine :=
  let s := s.noteCall req
  let s := { s with
    timeManager := { s.timeManager with lastAddRawPrepareTime := amb.steadyTime } }
  match execBlock E amb s req with
  | (.failed, s) => s
  | (.omitted, s) =>
    let s := { s with timeManager := { s.timeManager with lastExecTime := amb.steadyTime } }
    let s := s.changeViewForFastViewChange
    { s with timeManager := { s.timeManager with changeCycle := 0 } }
  | (.executed b result context, s) =>
    -- a block that came with the request is executed in place, also for the cached raw prepare
    let raw := s.reqCache.rawPrepareCache
    let raw := if req.pBlock.isSome then { raw with pBlock := some result } else raw
    let s := { s with
      timeManager := { s.timeManager with lastExecTime := amb.steadyTime }
      reqCache := { s.reqCache with rawPrepareCache := raw } }.note (.execBlock req b)
    if context = false ∧ b.transactions ≠ [] then s
    else s.generateSignMsg E amb req result context

def handlePrepareMsg : PBFTEngine :=
  match s.isValidPrepare E amb req with
  | .INVALID => s
  | .FUTURE => { s with reqCache := s.reqCache.addFuturePrepareCache req }
  | .VALID =>
    { s with reqCache := s.reqCache.addRawPrepare req }.execPrepareAndGenerateSignMsg E amb req

end

def handleFutureBlock : PBFTEngine :=
  match s.reqCache.futurePrepare? s.consensusBlockNumber with
  | none => s
  | some r =>
    if r.view = s.view then
      let s := s.handlePrepareMsg E amb r
      { s with reqCache := s.reqCache.eraseHandledFutureReq r.height }
    else s

def rehandleCommitedPrepareCache : PBFTEngine :=
  let req := PrepareReq.reproposed E s.keyPair s.view s.idx s.reqCache.committedPrepareCache amb.prepareStamp
  (s.note (.broadcastPrepareReq req)).handlePrepareMsg E amb req

/-- `shouldSeal`; a leader that is locked on the height under consensus proposes its lock again. -/
def shouldSeal : Bool × PBFTEngine :=
  if s.cfgErr then (false, s)
  else
    match s.getLeader with
    | none => (false, s)
    | some leader =>
      if leader ≠ s.idx then (s.notifyNextLeaderSeal && s.getNextLeader == s.idx, s)
      else if s.reqCache.committedPrepareCache.height = s.consensusBlockNumber then
        if s.reqCache.rawPrepareCache.height ≠ s.consensusBlockNumber then
          (false, s.rehandleCommitedPrepareCache E amb)
        else (false, s)
      else (true, s)

def constructPrepareReq (b : Block) : PrepareReq :=
  let req := PrepareReq.ofBlock E s.keyPair s.view s.idx b amb.prepareStamp
  { req with isEmpty := b.transactions.isEmpty }

def generatePrepare (b : Block) : PBFTEngine :=
  let req := s.constructPrepareReq E amb b
  let s := { s with notifyNextLeaderSeal := false }.note (.broadcastPrepareReq req)
  if b.transactions = [] ∧ s.omitEmptyBlock then
    let s := { s with leaderFailed := true }.changeViewForFastViewChange
    { s with timeManager := { s.timeManager with changeCycle := 0 } }
  else s.handlePrepareMsg E amb req

def handlePartiallyPrepare (req : PrepareReq) : PBFTEngine :=
  match s.isValidPrepare E amb req with
  | .INVALID => s
  | .FUTURE =>
    match PartiallyBlock.decodeProposal E req.block with
    | none => s
    | some pb =>
      let p : PartiallyPrepare := ⟨req, pb.initPartiallyBlock amb.pool⟩
      if p.proposal.txsAllHit then
        { s with reqCache := s.reqCache.addFuturePrepareCache (p.complete E) }
      else { s with reqCache := s.reqCache.addPartiallyFuturePrepare p }
  | .VALID =>
    if s.reqCache.partiallyRawPrepare.any (fun p => p.blockHash == req.blockHash) then s
    else
      match PartiallyBlock.decodeProposal E req.block with
      | none => { s with reqCache := { s.reqCache with partiallyRawPrepare := some ⟨req, {}⟩ } }
      | some pb =>
        let p : PartiallyPrepare := ⟨req, pb.initPartiallyBlock amb.pool⟩
        if p.proposal.txsAllHit then
          { s with
            reqCache := s.reqCache.transPartiallyPrepareIntoRawPrepare
              (p.complete E) }.execPrepareAndGenerateSignMsg E amb (p.complete E)
        else { s with reqCache := { s.reqCache with partiallyRawPrepare := some p } }

def onReceiveMissedTxsResponse (resp : MissedTxsResponse) : PBFTEngine :=
  match s.reqCache.partiallyFuturePrepare.filter (fun p => p.blockHash == resp.blockHash) with
  | some p =>
    match p.proposal.fillBlock E resp with
    | none => s
    | some pb =>
      { s with
        reqCache := { s.reqCache with partiallyFuturePrepare := none }.addFuturePrepareCache
          ({ p with proposal := pb }.complete E) }
  | none =>
    match s.reqCache.partiallyRawPrepare with
    | none => s
    | some p =>
      match p.proposal.fillBlock E resp with
      | none => s
      | some pb =>
        let req := { p with proposal := pb }.complete E
        let s := { s with
          reqCache := { s.reqCache with partiallyRawPrepare := some ⟨req, pb⟩ } }
        let t := s.handlePrepareMsg E amb req
        if s.isValidPrepare E amb req = .VALID then
          -- the request handled is `m_partiallyRawPrepare` itself, so it has been executed in place
          let raw := t.reqCache.rawPrepareCache
          let pb := { pb with header := (raw.pBlock.getD pb.toBlock).header }
          { t with reqCache := { t.reqCache with partiallyRawPrepare := some ⟨raw, pb⟩ } }
        else t

end

section

variable (E : Env) (amb : Ambient) (s : PBFTEngine)

def handleSignMsg (req : SignReq) : PBFTEngine :=
  if s.reqCache.isExistSign req then s
  else if s.hasConsensused req then s
  else
    match s.checkReq E amb req with
    | .INVALID => s
    | .FUTURE => { s with reqCache := s.reqCache.addSignReq (asFuture req) }
    | .VALID => { s with reqCache := s.reqCache.addSignReq req }.checkAndCommit E amb

def handleCommitMsg (req : CommitReq) : PBFTEngine :=
  if s.reqCache.isExistCommit req then s
  else if s.hasConsensused req then s
  else
    match s.checkReq E amb req with
    | .INVALID => s
    | .FUTURE => { s with reqCache := s.reqCache.addCommitReq (asFuture req) }
    | .VALID => { s with reqCache := s.reqCache.addCommitReq req }.checkAndSave E

end

section

variable (E : Env) (amb : Ambient) (s : PBFTEngine)

def viewChangeReq : ViewChangeReq :=
  PBFTMsg.signed E s.keyPair s.highestBlock.number s.toView s.idx (E.headerHash s.highestBlock) amb.viewChangeStamp

variable (req : ViewChangeReq)

def catchupView : PBFTEngine :=
  if getSealerByIndex s.sealerList req.idx ≠ 0 then
    { s with reqCache := s.reqCache.eraseLatest req.idx }.note
      (.sendViewChangeReq (s.viewChangeReq E amb) (some (getSealerByIndex s.sealerList req.idx)))
  else s

def isValidViewChangeReq (source : Nat) : Bool × PBFTEngine :=
  if s.reqCache.isExistViewChange req then (false, s)
  else if req.idx = s.idx then (false, s)
  else if req.height < s.highestBlock.number then (false, s)
  else
    let s := if req.view + 1 < s.toView ∧ req.idx = source then s.catchupView E amb req else s
    if req.view ≤ s.view then (false, s)
    else if (req.height = s.highestBlock.number ∧ req.blockHash ≠ E.headerHash s.highestBlock) ∨
        s.blockChain.getBlockByNumber req.height = none then (false, s)
    else (checkSign E s.sealerList req, s)

def viewTally : ViewTally where
  view := s.toView
  votes := s.reqCache.viewBucket s.toView
  highestBlock := s.highestBlock
  sealers := s.sealerList
  idx := s.idx
  minValidNodes := s.minValidNodes

def checkAndChangeView : PBFTEngine :=
  if s.minValidNodes - 1 ≤ s.reqCache.getViewChangeSize s.toView % (MAXIDX + 1) then
    { s with
      fastViewChange := if s.timeManager.lastSignTime = 0 then false else s.fastViewChange
      leaderFailed := false
      timeManager := { s.timeManager with lastConsensusTime := amb.steadyTime }
      view := s.toView
      notifyNextLeaderSeal := false
      reqCache := s.reqCache.triggerViewChange s.toView s.blockChain.number }.note
      (.changeView s.viewTally)
  else s

def handleViewChangeMsg (source : Nat) : PBFTEngine :=
  let q := s.isValidViewChangeReq E amb req source
  let s := q.2
  if q.1 then
    let s := { s with reqCache := s.reqCache.addViewChangeReq req s.blockChain.number }
    if req.view = s.toView then s.checkAndChangeView amb
    else
      let w := s.reqCache.canTriggerViewChange s.f s.toView s.highestBlock s.consensusBlockNumber
      if w.1 then { s with toView := w.2 - 1 }.changeViewForFastViewChange else s
  else s

def checkTimeout : PBFTEngine :=
  if s.timeManager.isTimeout amb.steadyTime then
    let t := s.timeManager
    let toView := s.toView + 1
    let s := { s with
      fastViewChange := if t.lastConsensusTime ≠ 0 then false else s.fastViewChange
      timeManager := { t.updateChangeCycle with lastConsensusTime := amb.steadyTime }
      toView := toView
      leaderFailed := true
      reqCache := s.reqCache.removeInvalidViewChange E toView s.highestBlock }
    (s.note (.sendViewChangeReq (s.viewChangeReq E amb) none)).checkAndChangeView amb
  else s

end

section

variable (E : Env) (amb : Ambient) (s : PBFTEngine) (b : Block)

def reportBlockWithoutLock : PBFTEngine :=
  let s := s.note (.reportBlock b.header.number)
  if s.blockChain.number = 0 ∨ s.highestBlock.number < b.header.number then
    let s := { s with highestBlock := b.header }
    let s :=
      if s.consensusBlockNumber ≤ b.header.number then
        { s with
          view := 0
          toView := 0
          leaderFailed := false
          timeManager :=
            { s.timeManager with lastConsensusTime := amb.steadyTime, changeCycle := 0 }
          consensusBlockNumber := b.header.number + 1
          reqCache := s.reqCache.delInvalidViewChange E b.header }
      else s
    let s := s.resetConfig amb
    { s with reqCache := s.reqCache.delCache E b.header }
  else s

def reportBlock (number : Int) : PBFTEngine :=
  match s.blockChain.getBlockByNumber number with
  | none => s
  | some b => s.reportBlockWithoutLock E amb b

-- block sync executes a fetched block and commits it without going through the engine
def syncBlock : PBFTEngine :=
  let q := s.blockChain.commitBlock E b
  if q.1 = .OK then { s with blockChain := q.2 }.note (.syncBlock b) else s

def collectGarbage : PBFTEngine :=
  if s.highestBlock.timestamp ≠ 2 ^ 64 - 1 ∧
      s.timeManager.lastGarbageCollection + TimeManager.collectInterval < amb.steadyTime then
    { s with
      timeManager := { s.timeManager with lastGarbageCollection := amb.steadyTime }
      reqCache := s.reqCache.collectGarbage E s.highestBlock }
  else s

end

/-- One turn of the engine: a packet from the queue, a call of the work loop, of the sealer, of block sync, or a packet
of the transaction-fetching protocol. -/
inductive Event where
  | handleMsg (p : PBFTMsgPacket)
  | handlePartiallyPrepare (p : PBFTMsgPacket)
  | onReceiveMissedTxsResponse (resp : MissedTxsResponse)
  | checkTimeout
  | handleFutureBlock
  | collectGarbage
  | generatePrepare (b : Block)
  | shouldSeal
  | reportBlock (number : Int)
  | checkBlock (b : Block)
  | syncBlock (b : Block)
deriving DecidableEq

def handleMsg (E : Env) (amb : Ambient) (s : PBFTEngine) (p : PBFTMsgPacket) : PBFTEngine :=
  match p.packetId with
  | .PrepareReqPacket => (decodeToPrepare p).elim s (s.handlePrepareMsg E amb)
  | .SignReqPacket => (decodeToMsg p).elim s (s.handleSignMsg E amb)
  | .CommitReqPacket => (decodeToMsg p).elim s (s.handleCommitMsg E amb)
  | .ViewChangeReqPacket =>
    (decodeToMsg p).elim s fun req => s.handleViewChangeMsg E amb req p.nodeIdx

/-- One event together with what its handler reads from outside. The work loop runs only while the node is a sealer. -/
def step (E : Env) (s : PBFTEngine) (e : Event × Ambient) : PBFTEngine :=
  match e.1 with
  | .handleMsg p => if s.idx = MAXIDX then s else s.handleMsg E e.2 p
  | .handlePartiallyPrepare p =>
    if s.enablePrepareWithTxsHash ∧ getSealerByIndex s.sealerList s.idx ≠ 0 then
      (decodeToPrepare p).elim s fun req =>
        s.handlePartiallyPrepare E e.2 { req with isEmpty := false }
    else s
  | .onReceiveMissedTxsResponse resp =>
    if s.enablePrepareWithTxsHash then s.onReceiveMissedTxsResponse E e.2 resp else s
  | .checkTimeout => if s.idx = MAXIDX then s else s.checkTimeout E e.2
  | .handleFutureBlock => if s.idx = MAXIDX then s else s.handleFutureBlock E e.2
  | .collectGarbage => if s.idx = MAXIDX then s else s.collectGarbage E e.2
  | .generatePrepare b => s.generatePrepare E e.2 b
  | .shouldSeal => (s.shouldSeal E e.2).2
  | .reportBlock number => s.reportBlock E e.2 number
  | .checkBlock b => (s.checkBlock E e.2 b).2
  | .syncBlock b => s.syncBlock E b

def reloadMsg (backup : Option WireMsg) : Option PrepareReq :=
  backup.bind fun w =>
    w.toMsg.bind fun m => w.block.map fun block => { toPBFTMsg := m, block := block }

/-- `initPBFTEnv` of a freshly constructed engine; `backup` is what the backup database holds. -/
def initPBFTEnv (E : Env) (amb : Ambient) (s : PBFTEngine) (backup : Option WireMsg) : PBFTEngine :=
  let t := s.timeManager
  let s := { s with
    consensusBlockNumber := 0
    view := 0
    toView := 0
    leaderFailed := false
    timeManager := { t with
      lastAddRawPrepareTime := amb.steadyTime, lastConsensusTime := amb.steadyTime
      lastExecTime := amb.steadyTime, lastSignTime := 0, viewTimeout := 3 * t.emptyBlockGenTime
      changeCycle := 0, lastGarbageCollection := amb.steadyTime } }
  let s := s.reportBlockWithoutLock E amb s.blockChain.head
  match reloadMsg backup with
  | none => s
  | some r => { s with reqCache := { s.reqCache with committedPrepareCache := r } }

end PBFTEngine

end FiscoBcos
