import FiscoBcos.Pbft.Handlers

/-!
# Block sync

`DownloadingBlockQueue` and the part of `SyncMaster` that brings downloaded blocks onto the chain. A node is the PBFT
engine with its chain and the queue. What the status packets of the peers say is an input.
-/

namespace FiscoBcos

def c_maxRequestBlocks : Nat := 32

def c_maxRequestShards : Nat := 4

def c_maxDownloadingBlockQueueSize : Nat :=
  c_maxRequestShards * c_maxRequestBlocks * 2

def c_maxDownloadingBlockQueueBufferSize : Nat :=
  c_maxDownloadingBlockQueueSize

/-- `m_blocks`, the smallest number first, and in `m_buffer` the coded blocks of every packet. -/
structure DownloadingBlockQueue where
  blocks : List Block := []
  buffer : List (List Bytes) := []
deriving DecidableEq

namespace DownloadingBlockQueue

variable (E : Env) (number : Int) (q : DownloadingBlockQueue)

def push (rlps : List Bytes) : DownloadingBlockQueue :=
  if c_maxDownloadingBlockQueueBufferSize ≤ q.buffer.length then q else { q with buffer := q.buffer ++ [rlps] }

def isNewerBlock (b : Block) : Bool :=
  !decide (b.header.number ≤ number)

/-- A block that cannot be decoded, or has a transaction without a sender, is left out. -/
def pushBlock (blocks : List Block) (bytes : Bytes) : List Block :=
  match E.decodeBlock bytes with
  | none => blocks
  | some b =>
    if E.verifySenders b.transactions && isNewerBlock number b then
      blocks.orderedInsert (fun a b => a.header.number ≤ b.header.number) b
    else blocks

/-- The packets that come when the queue is full are dropped. -/
def flush : List (List Bytes) → List Block → List Block
  | [], blocks => blocks
  | blocksShard :: buffer, blocks =>
    if c_maxDownloadingBlockQueueSize ≤ blocks.length then blocks
    else flush buffer (blocksShard.foldl (pushBlock E number) blocks)

def flushBufferToQueue : DownloadingBlockQueue :=
  ⟨flush E number q.buffer q.blocks, []⟩

def clearFullQueueIfNotHas (blockNumber : Int) : DownloadingBlockQueue :=
  if q.blocks.length = c_maxDownloadingBlockQueueSize ∧ ∀ b ∈ q.blocks.head?, blockNumber < b.header.number then
    { q with blocks := [] }
  else q

end DownloadingBlockQueue

namespace PBFTEngine

variable (E : Env) (amb : Ambient) (s : PBFTEngine) (b : Block)

def isNextBlock : Bool × PBFTEngine :=
  if s.blockChain.number + 1 ≠ b.header.number then (false, s)
  else if s.blockChain.numberHash E s.blockChain.number ≠ b.header.parentHash then (false, s)
  else s.checkBlock E amb b

def importBlock : PBFTEngine :=
  let q := s.isNextBlock E amb b
  if q.1 then
    let r := executeBlock E amb.executingNumber (q.2.blockChain.headInfo E) b
    if r.2 then q.2.syncBlock E r.1 else q.2
  else q.2

/-- Every turn takes the first block off the queue. -/
def importBlocks (s : PBFTEngine) : List Block → PBFTEngine × List Block
  | [] => (s, [])
  | b :: blocks =>
    if b.header.number ≤ s.blockChain.number + 1 then importBlocks (s.importBlock E amb b) blocks
    else (s, b :: blocks)

end PBFTEngine

structure SyncMaster where
  engine : PBFTEngine
  bq : DownloadingBlockQueue := {}
  downloading : Bool := false
  knownHighestNumber : Int := 0

namespace SyncMaster

variable (E : Env) (amb : Ambient) (n : SyncMaster)

def maintainDownloadingQueueBuffer : SyncMaster :=
  let number := n.engine.blockChain.number
  { n with bq :=
    if n.downloading then (n.bq.clearFullQueueIfNotHas (number + 1)).flushBufferToQueue E number else {} }

def maintainDownloadingQueue : SyncMaster :=
  if n.downloading then
    if n.knownHighestNumber ≤ n.engine.blockChain.number then { n with bq := {}, downloading := false }
    else
      let q := n.engine.importBlocks E amb n.bq.blocks
      { n with
        engine := q.1
        bq := { n.bq with blocks := q.2 }
        downloading := decide (q.1.blockChain.number < n.knownHighestNumber) }
  else n

/-- One turn of a node. Blocks come from block sync through the queue only. -/
inductive Event where
  | engine (e : PBFTEngine.Event)
  | onPeerBlocks (rlps : List Bytes)
  | maintainPeersStatus (downloading : Bool) (knownHighestNumber : Int)
  | maintainDownloadingQueueBuffer
  | maintainDownloadingQueue
deriving DecidableEq

def step (e : Event × Ambient) : SyncMaster :=
  match e.1 with
  | .engine (.syncBlock _) => n
  | .engine e' => { n with engine := PBFTEngine.step E n.engine (e', e.2) }
  | .onPeerBlocks rlps => { n with bq := n.bq.push rlps }
  | .maintainPeersStatus downloading knownHighestNumber =>
    { n with downloading := downloading, knownHighestNumber := knownHighestNumber }
  | .maintainDownloadingQueueBuffer => n.maintainDownloadingQueueBuffer E
  | .maintainDownloadingQueue => n.maintainDownloadingQueue E e.2

end SyncMaster

end FiscoBcos
