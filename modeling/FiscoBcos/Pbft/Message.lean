import FiscoBcos.Chain.Block

/-!
# PBFT messages

`libconsensus/pbft/Common.h`. `sig` signs only the block hash and `sig2` only the digest of height, view, index and time;
the kind of a request is a field of the packet.
-/

namespace FiscoBcos

open Option

/-- The largest `VIEWTYPE` (`int64_t`); the view of a cleared request. -/
def MAXVIEW : Int := 2 ^ 63 - 1

structure PBFTMsg where
  height : Int := -1
  view : Int := MAXVIEW
  idx : Nat := MAXIDX
  timestamp : Nat := Invalid256
  blockHash : Hash := 0
  sig : Bytes := []
  sig2 : Bytes := []
  isFuture : Bool := false
  signChecked : Bool := true
  isEmpty : Bool := false
deriving DecidableEq

abbrev SignReq := PBFTMsg
abbrev CommitReq := PBFTMsg
abbrev ViewChangeReq := PBFTMsg

/-- `execContext` records that `p_execContext` is set. -/
structure PrepareReq extends PBFTMsg where
  block : Bytes := []
  pBlock : Option Block := none
  execContext : Bool := false
deriving DecidableEq

/-- What the constructors of requests read besides their arguments: the clock and the randomness of
the two signatures. -/
structure Stamp where
  timestamp : Nat := 0
  nonce : Nat := 0
  nonce2 : Nat := 0
deriving DecidableEq

variable (E : Env) (keyPair : NodeID) (r : PrepareReq) (m : PBFTMsg) (view : Int) (idx : Nat) (b : Block) (st : Stamp)

def PBFTMsg.fieldsWithoutBlock : Hash :=
  E.fieldsHash m.height m.view m.idx m.timestamp

/-- The common body of the constructors of requests: both hashes signed with the node's own key. -/
def PBFTMsg.signed (height view : Int) (idx : Nat) (blockHash : Hash) (st : Stamp) : PBFTMsg where
  height := height
  view := view
  idx := idx
  timestamp := st.timestamp
  blockHash := blockHash
  sig := E.sign keyPair blockHash st.nonce
  sig2 := E.sign keyPair (E.fieldsHash height view idx st.timestamp) st.nonce2

/-- `PBFTMsg::clear`; resizing a signature to its own length leaves it in place. -/
def PBFTMsg.clear : PBFTMsg :=
  { m with
    height := -1, view := MAXVIEW, idx := MAXIDX, timestamp := Invalid256, blockHash := 0 }

def PrepareReq.clear : PrepareReq :=
  { r with toPBFTMsg := r.toPBFTMsg.clear }

open PBFTMsg

def PrepareReq.ofBlock : PrepareReq where
  toPBFTMsg := signed E keyPair b.header.number view idx (b.hash E) st
  block := E.encodeBlock b
  pBlock := some b

def PrepareReq.reproposed (r : PrepareReq) (st : Stamp) : PrepareReq where
  toPBFTMsg := signed E keyPair r.height view idx r.blockHash st
  block := r.block
  pBlock := r.pBlock

def PrepareReq.executed (context : Bool) (st : Stamp) : PrepareReq where
  toPBFTMsg := signed E keyPair r.height r.view r.idx (b.hash E) st
  pBlock := some b
  execContext := context

/-- `SignReq` and `CommitReq` copy height, view and hash from the executed proposal. -/
def PrepareReq.vote : PBFTMsg :=
  signed E keyPair r.height r.view idx r.blockHash st

inductive PacketType where
  | PrepareReqPacket
  | SignReqPacket
  | CommitReqPacket
  | ViewChangeReqPacket
deriving DecidableEq

/-- The fields `populate` reads from the data of a packet; `block` is what `toBytes` makes of the eighth
item, `none` if it throws, and only a prepare request needs it. -/
structure WireMsg where
  height : Int
  view : Int
  idx : Nat
  timestamp : Nat
  blockHash : Hash
  sig : Bytes
  sig2 : Bytes
  block : Option Bytes := none
deriving DecidableEq

/-- `data` is `none` when it is not an RLP list of these fields. The empty-block flag is the eighth
bit of `ttl`; no signature covers it. -/
structure PBFTMsgPacket where
  packetId : PacketType
  nodeIdx : Nat
  prepareWithEmptyBlock : Bool := false
  data : Option WireMsg
deriving DecidableEq

variable (p : PBFTMsgPacket)

/-- `PBFTMsg::populate`; an index that does not fit `IDXTYPE` is refused. -/
def WireMsg.toMsg (w : WireMsg) : Option PBFTMsg :=
  if w.idx ≤ MAXIDX then
    some
      { height := w.height, view := w.view, idx := w.idx, timestamp := w.timestamp,
        blockHash := w.blockHash, sig := w.sig, sig2 := w.sig2 }
  else none

def decodeToMsg : Option PBFTMsg :=
  p.data.bind WireMsg.toMsg

/-- `PrepareReq::populate`, and the flag of the packet carried over to the request. -/
def decodeToPrepare : Option PrepareReq :=
  p.data.bind fun w =>
    w.toMsg.bind fun m =>
      w.block.map fun block =>
        { toPBFTMsg := { m with isEmpty := p.prepareWithEmptyBlock }, block := block }

def PrepareReq.toWire : WireMsg where
  height := r.height
  view := r.view
  idx := r.idx
  timestamp := r.timestamp
  blockHash := r.blockHash
  sig := r.sig
  sig2 := r.sig2
  block := some r.block

/-- What an encoding keeps: `RLPStream` appends the low 32 bits of the height and the view. -/
def WireMsg.narrow (w : WireMsg) : WireMsg :=
  { w with height := w.height % 2 ^ 32, view := w.view % 2 ^ 32 }

lemma WireMsg.toMsg_eq {w : WireMsg} {m : PBFTMsg} (h : w.toMsg = some m) : w.idx ≤ MAXIDX ∧ m =
      { height := w.height, view := w.view, idx := w.idx, timestamp := w.timestamp
        blockHash := w.blockHash, sig := w.sig, sig2 := w.sig2 } := by
  unfold WireMsg.toMsg at h
  split at h
  · rename_i hidx
    exact ⟨hidx, (some.inj h).symm⟩
  · cases h

lemma decodeToMsg_flags {p : PBFTMsgPacket} {m : PBFTMsg} (h : decodeToMsg p = some m) :
    m.isFuture = false ∧ m.signChecked = true ∧ m.isEmpty = false ∧ m.idx ≤ MAXIDX := by
  obtain ⟨w, -, hw⟩ := bind_eq_some_iff.mp h
  obtain ⟨hidx, rfl⟩ := WireMsg.toMsg_eq hw
  exact ⟨rfl, rfl, rfl, hidx⟩

lemma decodeToPrepare_pBlock {p : PBFTMsgPacket} {r : PrepareReq}
    (h : decodeToPrepare p = some r) : r.pBlock = none ∧ r.isEmpty = p.prepareWithEmptyBlock := by
  obtain ⟨w, -, hw⟩ := bind_eq_some_iff.mp h
  obtain ⟨m, -, hm⟩ := bind_eq_some_iff.mp hw
  obtain ⟨b, -, rfl⟩ := map_eq_some_iff.mp hm
  exact ⟨rfl, rfl⟩

end FiscoBcos
