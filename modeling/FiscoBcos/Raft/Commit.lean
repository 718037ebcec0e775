import FiscoBcos.Raft.Engine

/-!
# The commits of a Raft leader

The acknowledgements of the block that waits to be committed, in `m_commitFingerPrint`, and the two threads that commit
it. What the sealer thread does in `commit` before it waits and after it is woken are two steps.
-/

namespace FiscoBcos

structure CommitRecord where
  hash : Hash
  acked : Finset Nat
  nodeNum : Nat
  f : Nat

/-- `sealer` is the block in the call of `commit` that waits. `acks` and `commits` are no state of the
engine: the acknowledgements of the current round, which begins when a block is put in place, and the
commits so far. -/
structure RaftCommitter where
  engine : RaftEngine
  commitFingerPrint : Hash → Finset Nat := fun _ => ∅
  sealer : Option Block := none
  acks : Hash → Finset Nat := fun _ => ∅
  commits : List CommitRecord := []

/-- `head` is the header of the last block of the chain when the event is over; `saved` says whether the
block that is executed was saved. -/
inductive CommitEvent where
  | turn (timeout beat : Bool) (ret : Option RaftPacket) (saved : Bool) (head : BlockHeader)
  | commit (block : Block)
  | wake (saved : Bool) (head : BlockHeader)
  | reportBlock (number : Int) (head : BlockHeader)
  | chainNumber (number : Int)
  | syncing
  | sealerList (sealerNum position : Nat)

namespace RaftEngine

def leads (timeout : Bool) (s : RaftEngine) : Bool :=
  s.loop = .runAsLeader ∧ s.state = .EN_STATE_LEADER ∧ s.nodeNum > 1 ∧ timeout = false

def installs (E : Env) (timeout : Bool) (hb : RaftHeartBeat) (s : RaftEngine) : Option Block :=
  if s.pops timeout ∧ ¬(hb.term < s.term ∧ hb.term ≤ s.lastLeaderTerm) ∧ hb.uncommitedBlock.length ≠ 0 ∧
      hb.uncommitedBlockNumber - 1 = s.chain.highestBlock.number then E.decodeBlock hb.uncommitedBlock
  else none

def brings (E : Env) (timeout : Bool) (ret : Option RaftPacket) (s : RaftEngine) : Option Block :=
  match ret with
  | some (.heartBeat hb) => s.installs E timeout hb
  | _ => none

end RaftEngine

def RaftChain.report (head : BlockHeader) (chain : RaftChain) : RaftChain :=
  { chain with
    highestBlock := head
    uncommittedBlock := {}
    uncommittedBlockNumber := 0
    consensusBlockNumber :=
      if chain.consensusBlockNumber ≤ head.number then head.number + 1 else chain.consensusBlockNumber }

namespace RaftCommitter

variable (E : Env)

def clear (c : RaftCommitter) : RaftCommitter :=
  { c with engine := { c.engine with
    chain := { c.engine.chain with uncommittedBlock := {}, uncommittedBlockNumber := 0 } } }

def ack (hash : Hash) (idx : Nat) (c : RaftCommitter) : RaftCommitter :=
  { c with
    commitFingerPrint := Function.update c.commitFingerPrint hash (insert idx (c.commitFingerPrint hash))
    acks := Function.update c.acks hash (insert idx (c.acks hash)) }

def record (hash : Hash) (c : RaftCommitter) : RaftCommitter :=
  { c with commits := ⟨hash, c.acks hash, c.engine.nodeNum, c.engine.f⟩ :: c.commits }

variable (timeout beat : Bool)

def generateHeartbeat (c : RaftCommitter) : RaftCommitter :=
  if c.engine.leads timeout ∧ beat ∧ c.engine.hasUncommittedBlock then
    c.ack (c.engine.chain.uncommittedBlock.hash E) c.engine.idx
  else c

def checkAndExecute (block : Block) (saved : Bool) (head : BlockHeader) (c : RaftCommitter) :
    RaftCommitter :=
  let c := c.record (block.hash E)
  if saved then
    { c with engine := { c.engine with chain := { c.engine.chain with number := head.number } } }.clear
  else c

def reportBlock (number : Int) (head : BlockHeader) (c : RaftCommitter) : RaftCommitter :=
  if c.engine.chain.number = 0 ∨ c.engine.chain.highestBlock.number < number then
    { c with
      commitFingerPrint := Function.update c.commitFingerPrint (c.engine.chain.uncommittedBlock.hash E) ∅
      engine := { c.engine with chain := c.engine.chain.report head }.resetConfig }
  else c

/-- The commit of the block that waits: by the sealer thread if that waits for it. -/
def commitUncommitted (saved : Bool) (head : BlockHeader) (c : RaftCommitter) : RaftCommitter :=
  if c.engine.chain.waitingForCommitting then
    let c := c.record (c.engine.chain.uncommittedBlock.hash E)
    { c with engine := { c.engine with chain := { c.engine.chain with commitReady := true } } }
  else
    let c := c.checkAndExecute E c.engine.chain.uncommittedBlock saved head
    c.reportBlock E c.engine.chain.uncommittedBlock.header.number head

/-- An empty hash is taken for the sign that there are no other sealers. -/
def tryCommitUncommitedBlock (resp : RaftHeartBeatResp) (saved : Bool) (head : BlockHeader)
    (c : RaftCommitter) : RaftCommitter :=
  if c.engine.hasUncommittedBlock then
    let hash := c.engine.chain.uncommittedBlock.hash E
    if c.engine.chain.uncommittedBlockNumber = c.engine.chain.consensusBlockNumber then
      if resp.uncommitedBlockHash ≠ 0 ∧ resp.uncommitedBlockHash = hash then
        let c := c.ack hash resp.idx
        if c.engine.nodeNum - c.engine.f ≤ (c.commitFingerPrint hash).card then
          c.commitUncommitted E saved head
        else c
      else if resp.uncommitedBlockHash = 0 then c.commitUncommitted E saved head
      else c
    else c.clear
  else c

variable (ret : Option RaftPacket)

def beginRound (s : RaftEngine) (c : RaftCommitter) : RaftCommitter :=
  if (s.brings E timeout ret).isSome then { c with acks := fun _ => ∅ } else c

def turn (saved : Bool) (head : BlockHeader) (c : RaftCommitter) : RaftCommitter :=
  let s := c.engine
  let c := (c.generateHeartbeat E timeout beat).beginRound E timeout ret s
  let c := { c with engine := (s.turn E timeout beat ret).1 }
  if s.leads timeout then
    match ret with
    | some (.heartBeatResp resp) =>
      if resp.term = s.term then c.tryCommitUncommitedBlock E resp saved head else c
    | _ => c
  else if s.loop = .runAsLeader ∧ s.state = .EN_STATE_LEADER ∧ s.nodeNum ≤ 1 then
    c.tryCommitUncommitedBlock E {} saved head
  else c

def commit (block : Block) (c : RaftCommitter) : RaftCommitter :=
  match c.sealer with
  | some _ => c
  | none =>
    { c with
      engine := { c.engine with chain := { c.engine.chain with
        uncommittedBlock := block
        uncommittedBlockNumber := c.engine.chain.consensusBlockNumber
        waitingForCommitting := true
        commitReady := false } }
      sealer := some block
      acks := fun _ => ∅ }

def wake (saved : Bool) (head : BlockHeader) (c : RaftCommitter) : RaftCommitter :=
  match c.sealer with
  | none => c
  | some block =>
    if c.engine.chain.commitReady then
      let c := { c with
        engine := { c.engine with chain := { c.engine.chain with
          commitReady := false, waitingForCommitting := false } }
        sealer := none }
      if !c.engine.hasUncommittedBlock then c
      else if c.engine.state ≠ .EN_STATE_LEADER then c
      else c.checkAndExecute E block saved head
    else c

def step (c : RaftCommitter) : CommitEvent → RaftCommitter
  | .turn timeout beat ret saved head => c.turn E timeout beat ret saved head
  | .commit block => c.commit block
  | .wake saved head => c.wake E saved head
  | .reportBlock number head => c.reportBlock E number head
  | .chainNumber number =>
    { c with engine := { c.engine with chain := { c.engine.chain with number := number } } }
  | .syncing => { c with engine := c.engine.syncing }
  | .sealerList sealerNum position =>
    { c with engine := { c.engine with sealerNum := sealerNum, position := position } }

end RaftCommitter

end FiscoBcos
