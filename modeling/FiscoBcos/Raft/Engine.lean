import FiscoBcos.Raft.Message

/-!
# The Raft engine

`libconsensus/raft/RaftEngine.cpp`: the loops, one turn at a time, with the handlers they call. The sealer list does not
change. Timers are inputs of a turn, and so is the packet it pops; what the engine reads of the chain changes between
turns.
-/

namespace FiscoBcos

def InvalidIndex : Nat := MAXIDX

inductive RaftRole where
  | EN_STATE_LEADER
  | EN_STATE_FOLLOWER
  | EN_STATE_CANDIDATE
deriving DecidableEq

inductive HandleVoteResult where
  | TO_LEADER
  | TO_FOLLOWER
  | NONE
deriving DecidableEq

structure VoteState where
  vote : Nat := 0
  unVote : Nat := 0
  lastTermErr : Nat := 0
  firstVote : Nat := 0
  discardedVote : Nat := 0
  outdated : Nat := 0
deriving DecidableEq

def VoteState.totalVoteCount (v : VoteState) : Nat :=
  v.vote + v.unVote + v.lastTermErr + v.firstVote + v.discardedVote + v.outdated

inductive RaftPacket where
  | voteReq (req : RaftVoteReq)
  | voteResp (resp : RaftVoteResp)
  | heartBeat (hb : RaftHeartBeat)
  | heartBeatResp (resp : RaftHeartBeatResp)
deriving DecidableEq

def RaftPacket.narrow : RaftPacket → RaftPacket
  | .voteReq req => .voteReq req.narrow
  | .voteResp resp => .voteResp resp.narrow
  | .heartBeat hb => .heartBeat hb.narrow
  | .heartBeatResp resp => .heartBeatResp resp.narrow

/-- Where the worker thread is between two turns. An exception ends it. -/
inductive RaftLoop where
  | workLoop
  | runAsLeader
  | runAsCandidate (voteState : VoteState)
  | runAsFollower
  | stopped
deriving DecidableEq

/-- What the engine reads of the chain and of the block it waits for. -/
structure RaftChain where
  number : Int := 0
  highestBlock : BlockHeader := {}
  consensusBlockNumber : Int := 0
  uncommittedBlock : Block := {}
  uncommittedBlockNumber : Int := 0
  waitingForCommitting : Bool := false
  commitReady : Bool := false
deriving DecidableEq

/-- `sealerNum` is the size of `m_sealerList` and `position` the place of the node in it. -/
structure RaftEngine where
  sealerNum : Nat
  position : Nat
  idx : Nat := 0
  nodeNum : Nat := 0
  f : Nat := 0
  state : RaftRole := .EN_STATE_FOLLOWER
  firstVote : Nat := InvalidIndex
  term : Nat := 0
  lastLeaderTerm : Nat := 0
  leader : Nat := InvalidIndex
  vote : Nat := InvalidIndex
  heartbeatCount : Nat := 0
  chain : RaftChain := {}
  loop : RaftLoop := .workLoop
deriving DecidableEq

structure RaftSent where
  broadcast : Option RaftPacket := none
  response : Option RaftPacket := none
deriving DecidableEq

namespace RaftEngine

variable (E : Env)

def succTerm (t : Nat) : Nat :=
  if t = 2 ^ 64 - 1 then 0 else t + 1

def predTerm (t : Nat) : Nat :=
  if t = 0 then 2 ^ 64 - 1 else t - 1

variable (s : RaftEngine) (votes : Nat)

def isMajorityVote : Bool :=
  s.nodeNum - s.f ≤ votes

def wonElection : Bool :=
  s.nodeNum - s.f ≤ votes

def leave : RaftEngine :=
  { s with loop := .workLoop }

def switchToLeader : RaftEngine :=
  { s with leader := s.idx, state := .EN_STATE_LEADER }

def switchToFollower (leader : Nat) (s : RaftEngine) : RaftEngine :=
  let s := { s with leader := leader, state := .EN_STATE_FOLLOWER, heartbeatCount := 0 }
  if s.chain.waitingForCommitting then
    { s with chain := { s.chain with uncommittedBlock := {}, uncommittedBlockNumber := 0
                                     commitReady := true } }
  else s

/-- The comparisons are those of a `size_t` with a `uint16_t`. -/
def resetConfig : RaftEngine :=
  if s.sealerNum ≠ s.nodeNum ∨ s.position ≠ s.idx then
    let nodeNum := s.sealerNum % 2 ^ 16
    switchToFollower InvalidIndex { s with nodeNum := nodeNum, idx := s.position % 2 ^ 16, f := (nodeNum - 1) / 2 }
  else s

def switchToCandidate : RaftEngine :=
  let s := s.resetConfig
  { s with term := succTerm s.term, leader := InvalidIndex, state := .EN_STATE_CANDIDATE }

/-- The test of `m_firstVote` against `Invalid256` never fails: the index has 16 bits. -/
def clearFirstVoteCache : RaftEngine :=
  if s.heartbeatCount + 1 ≥ 8 then { s with heartbeatCount := 0, firstVote := InvalidIndex }
  else { s with heartbeatCount := s.heartbeatCount + 1 }

def hasUncommittedBlock : Bool :=
  s.chain.uncommittedBlock.header.timestamp != 2 ^ 64 - 1

def currentBlockNumber : Int :=
  if s.hasUncommittedBlock then s.chain.number + 1 else s.chain.number

def header : RaftMsg where
  idx := s.idx
  term := s.term
  height := s.chain.highestBlock.number
  blockHash := E.headerHash s.chain.highestBlock

def generateVoteReq : RaftVoteReq where
  toRaftMsg := s.header E
  candidate := s.idx
  lastLeaderTerm := s.lastLeaderTerm
  lastBlockNumber := s.currentBlockNumber

def generateHeartbeat : RaftHeartBeat where
  toRaftMsg := s.header E
  leader := s.idx
  uncommitedBlock := if s.hasUncommittedBlock then E.encodeBlock s.chain.uncommittedBlock else []
  uncommitedBlockNumber := if s.hasUncommittedBlock then s.chain.consensusBlockNumber else 0

def broadcastHeartbeat (beat : Bool) (s : RaftEngine) : RaftEngine × Option RaftPacket :=
  if beat then (s.clearFirstVoteCache, some (.heartBeat (s.generateHeartbeat E))) else (s, none)

/-- The response, with whether the vote is granted. A leader that gets a request for a term not above its own notes the
flag and goes on. -/
def handleVoteRequest (req : RaftVoteReq) (s : RaftEngine) : RaftEngine × RaftVoteResp × Bool :=
  let resp : RaftVoteResp :=
    { toRaftMsg := s.header E, voteFlag := .VOTE_RESP_REJECT, lastLeaderTerm := s.lastLeaderTerm }
  if req.term ≤ s.term ∧ s.state ≠ .EN_STATE_LEADER then
    if req.term = s.term then (s, { resp with voteFlag := .VOTE_RESP_DISCARD }, false)
    else (s, { resp with voteFlag := .VOTE_RESP_REJECT }, false)
  else
    let resp := if req.term ≤ s.term then { resp with voteFlag := .VOTE_RESP_LEADER_REJECT } else resp
    if req.lastLeaderTerm < s.lastLeaderTerm then
      (s, { resp with voteFlag := .VOTE_RESP_LASTTERM_ERROR }, false)
    else if req.lastBlockNumber < s.currentBlockNumber then
      (s, { resp with voteFlag := .VOTE_RESP_OUTDATED }, false)
    else if s.firstVote = InvalidIndex then
      ({ s with firstVote := req.candidate }, { resp with voteFlag := .VOTE_RESP_FIRST_VOTE }, false)
    else
      let s := { s with term := req.term, leader := InvalidIndex, vote := req.candidate
                        firstVote := req.candidate }
      (s, { resp with term := s.term, voteFlag := .VOTE_RESP_GRANTED }, true)

def handleVoteResponse (resp : RaftVoteResp) (v : VoteState) (s : RaftEngine) :
    RaftEngine × VoteState × HandleVoteResult :=
  if resp.term < predTerm s.term then (s, v, .NONE)
  else
    match resp.voteFlag with
    | .VOTE_RESP_REJECT =>
      let v := { v with unVote := v.unVote + 1 }
      (s, v, if s.isMajorityVote v.unVote then .TO_FOLLOWER else .NONE)
    | .VOTE_RESP_LEADER_REJECT =>
      ({ s with term := resp.term, lastLeaderTerm := resp.lastLeaderTerm }, v, .TO_FOLLOWER)
    | .VOTE_RESP_LASTTERM_ERROR =>
      let v := { v with lastTermErr := v.lastTermErr + 1 }
      (s, v, if s.isMajorityVote v.lastTermErr then .TO_FOLLOWER else .NONE)
    | .VOTE_RESP_FIRST_VOTE =>
      let v := { v with firstVote := v.firstVote + 1 }
      if s.isMajorityVote v.firstVote then ({ s with term := predTerm s.term }, v, .TO_FOLLOWER)
      else (s, v, .NONE)
    | .VOTE_RESP_DISCARD => (s, { v with discardedVote := v.discardedVote + 1 }, .NONE)
    | .VOTE_RESP_OUTDATED => (s, { v with outdated := v.outdated + 1 }, .NONE)
    | .VOTE_RESP_GRANTED =>
      let v := { v with vote := v.vote + 1 }
      (s, v, if s.isMajorityVote v.vote then .TO_LEADER else .NONE)
    | .unknown _ => (s, v, .NONE)

/-- What becomes of the block a heartbeat brings: the chain that waits for it, and its hash for the response. -/
inductive HeartbeatBlock where
  | refused
  | throws
  | taken (chain : RaftChain) (hash : Hash)

variable (hb : RaftHeartBeat)

def takeBlock (s : RaftEngine) : HeartbeatBlock :=
  if hb.uncommitedBlock.length = 0 then .taken s.chain 0
  else if hb.uncommitedBlockNumber - 1 = s.chain.highestBlock.number then
    match E.decodeBlock hb.uncommitedBlock with
    | none => .throws
    | some b =>
      .taken { s.chain with
        uncommittedBlock := b, uncommittedBlockNumber := hb.uncommitedBlockNumber } (b.hash E)
  else .refused

/-- `m_term` after a heartbeat that is not turned away, and whether the node steps down. -/
def heartbeatTerm (s : RaftEngine) : RaftEngine × Bool :=
  let (s, stepDown) := if hb.term > s.lastLeaderTerm then
      ({ s with term := hb.term, vote := InvalidIndex }, true) else (s, false)
  let (s, stepDown) := if hb.term > s.term then
      ({ s with term := hb.term, vote := InvalidIndex }, true) else (s, stepDown)
  if s.state = .EN_STATE_CANDIDATE ∧ hb.term ≥ s.term then
    ({ s with term := hb.term, vote := InvalidIndex }, true)
  else (s, stepDown)

/-- The response, if one is sent, with whether the node steps down; `none` when decoding throws. -/
def handleHeartbeat (s : RaftEngine) : Option (RaftEngine × Option RaftHeartBeatResp × Bool) :=
  if hb.term < s.term ∧ hb.term ≤ s.lastLeaderTerm then some (s, none, false)
  else
    match s.takeBlock E hb with
    | .refused => some (s, none, false)
    | .throws => none
    | .taken chain hash =>
      let resp : RaftHeartBeatResp := { toRaftMsg := s.header E, uncommitedBlockHash := hash }
      let (s, stepDown) := { s with chain := chain }.heartbeatTerm hb
      let s := s.clearFirstVoteCache
      some ({ s with lastLeaderTerm := hb.term }, some resp, stepDown)

variable (broadcast : Option RaftPacket)

def onVoteReq (req : RaftVoteReq) (s : RaftEngine) : RaftEngine × RaftSent :=
  let (s, resp, granted) := s.handleVoteRequest E req
  (if granted then (s.switchToFollower InvalidIndex).leave else s, ⟨broadcast, some (.voteResp resp)⟩)

def onHeartBeat (hb : RaftHeartBeat) (s : RaftEngine) : RaftEngine × RaftSent :=
  match s.handleHeartbeat E hb with
  | none => ({ s with loop := .stopped }, ⟨broadcast, none⟩)
  | some (s, resp, stepDown) =>
    (if stepDown then (s.switchToFollower hb.leader).leave else s, ⟨broadcast, resp.map .heartBeatResp⟩)

variable (timeout : Bool)

/-- `timeout` is `checkHeartbeatTimeout`. The acknowledgement of a heartbeat only concerns blocks and timers, as does a
turn of the only sealer. -/
def runAsLeaderImp (beat : Bool) (ret : Option RaftPacket) (s : RaftEngine) : RaftEngine × RaftSent :=
  if s.state ≠ .EN_STATE_LEADER then (s.leave, {})
  else if s.nodeNum > 1 then
    if timeout then (s.switchToCandidate.leave, {})
    else
      let (s, heartbeat) := s.broadcastHeartbeat E beat
      match ret with
      | some (.voteReq req) => s.onVoteReq E heartbeat req
      | some (.heartBeat hb) => s.onHeartBeat E heartbeat hb
      | _ => (s, ⟨heartbeat, none⟩)
  else (s, {})

def onVoteResp (v : VoteState) (resp : RaftVoteResp) (s : RaftEngine) : RaftEngine :=
  match s.handleVoteResponse resp v with
  | (s, _, .TO_LEADER) => s.switchToLeader.leave
  | (s, _, .TO_FOLLOWER) => (s.switchToFollower InvalidIndex).leave
  | (s, v, .NONE) => { s with loop := .runAsCandidate v }

variable (ret : Option RaftPacket)

def runAsCandidateImp (v : VoteState) (s : RaftEngine) : RaftEngine × RaftSent :=
  if s.state ≠ .EN_STATE_CANDIDATE then (s.leave, {})
  else if timeout then
    if s.isMajorityVote v.totalVoteCount then (s.switchToCandidate.leave, {})
    else (({ s with term := predTerm s.term }.switchToFollower InvalidIndex).leave, {})
  else
    match ret with
    | some (.voteReq req) => s.onVoteReq E none req
    | some (.voteResp resp) => (s.onVoteResp v resp, {})
    | some (.heartBeat hb) => s.onHeartBeat E none hb
    | _ => (s, {})

def runAsFollowerImp (s : RaftEngine) : RaftEngine × RaftSent :=
  if s.state ≠ .EN_STATE_FOLLOWER then (s.leave, {})
  else if timeout then (s.switchToCandidate.leave, {})
  else
    match ret with
    | some (.voteReq req) =>
      let (s, resp, granted) := s.handleVoteRequest E req
      (if granted then s.leave else s, ⟨none, some (.voteResp resp)⟩)
    | some (.heartBeat hb) =>
      match s.handleHeartbeat E hb with
      | none => ({ s with loop := .stopped }, {})
      | some (s, resp, stepDown) =>
        (if stepDown then { s with leader := hb.leader } else s, ⟨none, resp.map .heartBeatResp⟩)
    | _ => (s, {})

/-- What `workLoop` does when the node is not syncing: up to the first turn of the loop it enters. -/
def workLoop : RaftEngine × RaftSent :=
  let s := s.resetConfig
  match s.state with
  | .EN_STATE_LEADER =>
    ({ s with firstVote := InvalidIndex, lastLeaderTerm := s.term, loop := .runAsLeader }, {})
  | .EN_STATE_FOLLOWER => ({ s with loop := .runAsFollower }, {})
  | .EN_STATE_CANDIDATE =>
    let sent : RaftSent := { broadcast := some (.voteReq (s.generateVoteReq E)) }
    let s := { s with vote := s.idx, firstVote := s.idx }
    if s.wonElection 1 then (s.switchToLeader, sent)
    else ({ s with loop := .runAsCandidate { vote := 1 } }, sent)

def turn (beat : Bool) (ret : Option RaftPacket) (s : RaftEngine) : RaftEngine × RaftSent :=
  match s.loop with
  | .workLoop => s.workLoop E
  | .runAsLeader => s.runAsLeaderImp E timeout beat ret
  | .runAsCandidate v => s.runAsCandidateImp E timeout ret v
  | .runAsFollower => s.runAsFollowerImp E timeout ret
  | .stopped => (s, {})

def pops (s : RaftEngine) : Bool :=
  match s.loop with
  | .runAsLeader => s.state = .EN_STATE_LEADER ∧ s.nodeNum > 1 ∧ timeout = false
  | .runAsCandidate _ => s.state = .EN_STATE_CANDIDATE ∧ timeout = false
  | .runAsFollower => s.state = .EN_STATE_FOLLOWER ∧ timeout = false
  | _ => false

def syncing : RaftEngine :=
  match s.loop with
  | .stopped => s
  | _ => s.leave

end RaftEngine

end FiscoBcos
