import FiscoBcos.Chain.Symbolic
import FiscoBcos.Pbft.Codec
import FiscoBcos.Pbft.Engine

/-!
# Forwarded packets

A packet is sent on by its ttl or to the nodes it lists. The empty-block flag travels in the eighth bit of the ttl;
`broadcastMsg` sets it from the request, `sendMsg` does not. A prepare request that came with the hashes of its
transactions only is sent on with the transactions.
-/

namespace FiscoBcos

open List

/-- A packet on the wire; only an `OPBFTMsgPacket` has `forwardNodes`. -/
structure WirePacket where
  packetId : UInt8
  ttl : UInt8
  data : List UInt8
  forwardNodes : List NodeID := []

structure NetPacket extends WirePacket where
  prepareWithEmptyBlock : Bool := false

def NetPacket.streamRLPFields (p : NetPacket) : WirePacket :=
  { p.toWirePacket with ttl := if p.prepareWithEmptyBlock then p.ttl ||| 0x80 else p.ttl }

def WirePacket.populate (w : WirePacket) : NetPacket where
  toWirePacket := { w with ttl := w.ttl &&& 0x7f }
  prepareWithEmptyBlock := w.ttl &&& 0x80 != 0

/-- The request that `handleMsg` decodes. -/
def NetPacket.request (p : NetPacket) : Option PBFTMsg :=
  if p.packetId = 0 then
    (PrepareReq.decode p.data).map fun r => { r.toPBFTMsg with isEmpty := p.prepareWithEmptyBlock }
  else if p.packetId ≤ 3 then PBFTMsg.decode p.data
  else none

/-- A packet of a prepare request that waits for the transactions of its block; `nodeId` has sent it. -/
structure CachedForwardMsg (optimize : Bool) where
  packet : NetPacket
  nodeId : NodeID
  prepareReq : PrepareReq
  decoded : PrepareReq.decode packet.data = some prepareReq
  ttl_ne_one : optimize = false → packet.ttl ≠ 1

/-- What forwarding reads of a node; `broadcasted` is the content of `m_broadCastCache`. -/
structure Forwarder where
  keyPair : NodeID
  enableTTLOptimize : Bool
  maxTTL : UInt8 := 2
  highestBlock : Int := 0
  sealerList : List NodeID
  sessions : List NodeID
  broadcasted : List (NodeID × UInt8 × Bytes) := []
  cachedForwardMsg : List (CachedForwardMsg enableTTLOptimize) := []

namespace Forwarder

variable (E : Env) (n : Forwarder) (p : NetPacket) (m : PBFTMsg) (data : List UInt8) (nodeId : NodeID) (valid : Bool)

def needForwardMsg : Bool :=
  !(n.enableTTLOptimize && p.forwardNodes = []) && (valid && m.sig ++ m.sig2 ≠ []) &&
    (n.enableTTLOptimize || p.ttl ≠ 1) && (n.highestBlock < m.height || n.highestBlock - m.height < 10)

def createPBFTMsgPacket (ttl : UInt32) (forwardNodes : List NodeID) : NetPacket where
  packetId := p.packetId
  ttl := if ttl = 0 then n.maxTTL else ttl.toUInt8
  data := data
  forwardNodes := forwardNodes

def isTarget (peer : NodeID) : Bool :=
  peer ∈ n.sealerList ∧ (peer, p.packetId, m.sig ++ m.sig2) ∉ n.broadcasted

def forwardMsgByTTL : List (NodeID × WirePacket) :=
  let genNodeId := getSealerByIndex n.sealerList m.idx
  let packet := n.createPBFTMsgPacket p data (p.ttl.toUInt32 - 1) []
  (n.sessions.filter fun peer => n.isTarget p m peer ∧ peer ≠ nodeId ∧ (genNodeId = 0 ∨ peer ≠ genNodeId)).map
    fun peer => (peer, { packet with prepareWithEmptyBlock := m.isEmpty }.streamRLPFields)

/-- A node listed twice is sent the packet once, since the first time is marked. -/
def forwardMsgByNodeInfo : List (NodeID × WirePacket) :=
  let remaining := (p.forwardNodes.dedup.filter fun x => x ∉ n.sessions ∧ x ≠ n.keyPair).insertionSort (· ≤ ·)
  (p.forwardNodes.dedup.filter fun peer => n.isTarget p m peer ∧ peer ∈ n.sessions).map
    fun peer => (peer, (n.createPBFTMsgPacket p data 1 remaining).streamRLPFields)

/-- `forwardMsg` with the data of the packet, `forwardPrepareMsg` with those of the completed request. -/
def forward : List (NodeID × WirePacket) :=
  if n.enableTTLOptimize then n.forwardMsgByNodeInfo p m data else n.forwardMsgByTTL p m data nodeId

def forwardMsg : List (NodeID × WirePacket) :=
  n.forward p m p.data nodeId

def forwardPrepareMsg (req : PrepareReq) (pBlock : PartiallyBlock) : List (NodeID × WirePacket) :=
  n.forward p req.toPBFTMsg (PrepareReq.encode { req with block := E.encodeBlock pBlock.toBlock }) nodeId

/-- What `handleMsg` sends on; `valid` is what the handler of the request returned. -/
def handleMsg (w : WirePacket) : List (NodeID × WirePacket) :=
  match w.populate.request with
  | some m => if n.needForwardMsg w.populate m valid then n.forwardMsg w.populate m nodeId else []
  | none => []

lemma ttl_ne_one_of_needForwardMsg {n : Forwarder} {p : NetPacket} {m : PBFTMsg} {valid : Bool}
    (h : n.needForwardMsg p m valid = true) (hopt : n.enableTTLOptimize = false) : p.ttl ≠ 1 := by
  simp [needForwardMsg, hopt] at h
  exact h.1.2

def clearInvalidCachedForwardMsg : Forwarder :=
  { n with
    cachedForwardMsg := n.cachedForwardMsg.filter fun c =>
      ¬(c.prepareReq.height < n.highestBlock ∧ 10 ≤ n.highestBlock - c.prepareReq.height) }

/-- The cache is a map by the hash of the block, and `insert` leaves what is there. -/
def cacheForwardMsg (c : CachedForwardMsg n.enableTTLOptimize) : Forwarder :=
  if n.cachedForwardMsg.any fun c' => c'.prepareReq.blockHash = c.prepareReq.blockHash then n
  else { n with cachedForwardMsg := n.cachedForwardMsg ++ [c] }

/-- What a request with the hashes of its transactions leads to; `handlePartiallyPrepare` has returned `succ` and left the
block `pBlock` in the request. -/
def handleReceivedPartiallyPrepare (succ : Bool) (pBlock : Option PartiallyBlock) (w : WirePacket) :
    Forwarder × List (NodeID × WirePacket) :=
  match hreq : PrepareReq.decode w.populate.data, pBlock with
  | some req, some pBlock =>
    if hneed : n.needForwardMsg w.populate req.toPBFTMsg succ then
      if pBlock.txsAllHit then (n, n.forwardPrepareMsg E w.populate nodeId req pBlock)
      else (n.clearInvalidCachedForwardMsg.cacheForwardMsg
        ⟨w.populate, nodeId, req, hreq, ttl_ne_one_of_needForwardMsg hneed⟩, [])
    else (n, [])
  | _, _ => (n, [])

def cachedFor (req : PrepareReq) : Option (CachedForwardMsg n.enableTTLOptimize) :=
  n.cachedForwardMsg.find? fun c => c.prepareReq.blockHash = req.blockHash

/-- The transactions of the cached request `req` have come and its block is `pBlock`; `handlePrepareMsg` has returned
`ret`. -/
def onReceiveMissedTxsResponse (ret : Bool) (req : PrepareReq) (pBlock : PartiallyBlock) :
    Forwarder × List (NodeID × WirePacket) :=
  ({ n with cachedForwardMsg := n.cachedForwardMsg.filter fun c => c.prepareReq.blockHash ≠ req.blockHash },
    match n.cachedFor req with
    | some c => if ret then n.forwardPrepareMsg E c.packet c.nodeId req pBlock else []
    | none => [])

end Forwarder

/-- How a packet comes to be sent on: as it is, or as a prepare request whose transactions were all in the pool or have
been sent after it. -/
inductive Route where
  | message
  | partially
  | missedTxs

/-- A node sends on the packet `w` as `w'`. -/
inductive Forwarded (E : Env) (n : Forwarder) (w w' : WirePacket) : Route → Prop where
  | message (nodeId peer : NodeID) (valid : Bool) (h : (peer, w') ∈ n.handleMsg nodeId valid w) : Forwarded E n w w' .message
  | partially (nodeId peer : NodeID) (succ : Bool) (pBlock : Option PartiallyBlock)
      (h : (peer, w') ∈ (n.handleReceivedPartiallyPrepare E nodeId succ pBlock w).2) : Forwarded E n w w' .partially
  | missedTxs (peer : NodeID) (ret : Bool) (data : List UInt8) (req : PrepareReq) (pBlock : PartiallyBlock)
      (c : CachedForwardMsg n.enableTTLOptimize) (hreq : PrepareReq.decode data = some req)
      (hcached : n.cachedFor req = some c) (hpacket : c.packet = w.populate)
      (h : (peer, w') ∈ (n.onReceiveMissedTxsResponse E ret req pBlock).2) : Forwarded E n w w' .missedTxs

/-- One hop of a packet, through any node. -/
def Hop (E : Env) (optimize : Bool) (w w' : WirePacket) : Prop :=
  ∃ n route, n.enableTTLOptimize = optimize ∧ Forwarded E n w w' route

/-- The data that a packet is sent on with. -/
def Route.Carries (E : Env) (data data' : List UInt8) : Route → Prop
  | .message => data' = data
  | .partially => ∃ (req : PrepareReq) (pBlock : PartiallyBlock), PrepareReq.decode data = some req ∧
      pBlock.txsAllHit = true ∧ data' = PrepareReq.encode { req with block := E.encodeBlock pBlock.toBlock }
  | .missedTxs => ∃ (r req : PrepareReq) (pBlock : PartiallyBlock), PrepareReq.decode data = some r ∧
      req.blockHash = r.blockHash ∧ data' = PrepareReq.encode { req with block := E.encodeBlock pBlock.toBlock }

/-- Only prepare packets with their transactions have the flag and none that lists nodes has it; a ttl to go by is not
0. -/
def Regular : Bool → Route → NetPacket → Prop
  | true, _, p => p.prepareWithEmptyBlock = false
  | false, .message, p => p.ttl ≠ 0 ∧ (p.prepareWithEmptyBlock = true → p.packetId = 0)
  | false, _, p => p.ttl ≠ 0 ∧ p.prepareWithEmptyBlock = false

/-- The packet sent on reads as the one received, with less to go by its ttl. -/
structure SentOn (E : Env) (optimize : Bool) (route : Route) (p p' : NetPacket) : Prop where
  packetId : p'.packetId = p.packetId
  data : route.Carries E p.data p'.data
  flag : Regular optimize route p → p'.prepareWithEmptyBlock = p.prepareWithEmptyBlock
  ttl : optimize = false → p.ttl ≠ 0 → p'.ttl < p.ttl

/-- How often a packet can still be sent on; a ttl of 0 becomes 127. -/
def hops : Bool → NetPacket → Nat
  | true, p => p.forwardNodes.toFinset.card
  | false, p => (p.ttl.toNat + 127) % 128

/-- What `forward` makes of a packet, of its request and of the data. -/
structure Sent (optimize : Bool) (p : NetPacket) (m : PBFTMsg) (data : List UInt8) (p' : NetPacket) : Prop where
  packetId : p'.packetId = p.packetId
  data : p'.data = data
  unflagged : optimize = true → p'.prepareWithEmptyBlock = false
  flag : optimize = false → p.ttl ≠ 0 → p'.prepareWithEmptyBlock = m.isEmpty
  ttl : optimize = false → p.ttl ≠ 0 → p'.ttl < p.ttl
  hops_lt : hops optimize p' < hops optimize p

section

variable {E : Env} {n : Forwarder} {w w' : WirePacket} {m : PBFTMsg} {req : PrepareReq} {data : List UInt8}
  {nodeId peer : NodeID} {route : Route}

lemma PrepareReq.isEmpty_of_decode (h : PrepareReq.decode data = some req) : req.isEmpty = false := by
  obtain ⟨v, -, hv⟩ := Option.bind_eq_some_iff.mp h
  obtain ⟨m, hm, hblock⟩ := Option.bind_eq_some_iff.mp hv
  obtain ⟨block, -, rfl⟩ := Option.map_eq_some_iff.mp hblock
  obtain ⟨-, rfl⟩ := WireMsg.toMsg_eq hm
  rfl

lemma NetPacket.request_isEmpty {p : NetPacket} (h : p.request = some m)
    (hp : p.prepareWithEmptyBlock = true → p.packetId = 0) : m.isEmpty = p.prepareWithEmptyBlock := by
  unfold request at h
  split_ifs at h with h0
  · obtain ⟨r, -, rfl⟩ := Option.map_eq_some_iff.mp h
    rfl
  · obtain ⟨v, -, hv⟩ := Option.bind_eq_some_iff.mp h
    rw [(WireMsg.toMsg_eq hv).2]
    exact (Bool.eq_false_iff.mpr fun h => h0 (hp h)).symm

lemma WirePacket.ttl_spec (w : WirePacket) (flag : Bool) : let x := w.populate.ttl
    let y := if flag then (x.toUInt32 - 1).toUInt8 ||| 0x80 else (x.toUInt32 - 1).toUInt8
    x ≠ 1 → x.toUInt32 - 1 ≠ 0 ∧ (x ≠ 0 → (y &&& 0x80 != 0) = flag) ∧ (x ≠ 0 → y &&& 0x7f < x) ∧
      ((y &&& 0x7f).toNat + 127) % 128 < (x.toNat + 127) % 128 := by
  simp only [WirePacket.populate]
  cases w.ttl with
  | ofBitVec t =>
    cases t with
    | ofFin t =>
      revert flag t
      decide +kernel

lemma Forwarder.unflagged (n : Forwarder) (p : NetPacket) (data : List UInt8) (nodes : List NodeID) :
    (n.createPBFTMsgPacket p data 1 nodes).streamRLPFields.populate.prepareWithEmptyBlock = false := by
  have hone : ¬(1 : UInt32) = 0 := by decide
  simp only [WirePacket.populate, NetPacket.streamRLPFields, createPBFTMsgPacket, if_neg hone]
  decide

lemma sent_forwardMsgByTTL (hmem : (peer, w') ∈ n.forwardMsgByTTL w.populate m data nodeId)
    (hne : w.populate.ttl ≠ 1) : Sent false w.populate m data w'.populate := by
  obtain ⟨_, -, heq⟩ := mem_map.mp hmem
  cases heq
  obtain ⟨hpos, hflag, hlt, hhops⟩ := w.ttl_spec m.isEmpty hne
  unfold Forwarder.createPBFTMsgPacket
  rw [if_neg hpos]
  generalize w.populate.ttl.toUInt32 - 1 = ttl at hflag hlt hhops ⊢
  exact ⟨rfl, rfl, fun h => (nomatch h), fun _ => hflag, fun _ => hlt, hhops⟩

lemma sent_forwardMsgByNodeInfo (hmem : (peer, w') ∈ n.forwardMsgByNodeInfo w.populate m data) :
    Sent true w.populate m data w'.populate := by
  obtain ⟨_, hpeer, heq⟩ := mem_map.mp hmem
  cases heq
  obtain ⟨hlisted, hsession⟩ := mem_filter.mp hpeer
  refine ⟨rfl, rfl, fun _ => n.unflagged _ _ _, fun h => (nomatch h), fun h => (nomatch h), ?_⟩
  simp only [decide_eq_true_eq] at hsession
  refine (Finset.card_le_card fun x hx => ?_).trans_lt
    (Finset.card_erase_lt_of_mem (mem_toFinset.mpr (mem_dedup.mp hlisted)))
  obtain ⟨hx, hkept⟩ := mem_filter.mp ((mem_insertionSort _).mp (mem_toFinset.mp hx))
  simp only [decide_eq_true_eq] at hkept
  rw [Finset.mem_erase, mem_toFinset]
  exact ⟨fun h => hkept.1 (h ▸ hsession.2), mem_dedup.mp hx⟩

lemma sent_forward (hmem : (peer, w') ∈ n.forward w.populate m data nodeId)
    (hne : n.enableTTLOptimize = false → w.populate.ttl ≠ 1) :
    Sent n.enableTTLOptimize w.populate m data w'.populate := by
  unfold Forwarder.forward at hmem
  cases hopt : n.enableTTLOptimize with
  | true =>
    rw [hopt] at hmem
    exact sent_forwardMsgByNodeInfo hmem
  | false =>
    rw [hopt] at hmem
    exact sent_forwardMsgByTTL hmem (hne hopt)

/-- Every route ends in `forward`, with the data of the route and a request that has the flag of a regular packet. -/
lemma Forwarded.sent (h : Forwarded E n w w' route) : ∃ (m : PBFTMsg) (data : List UInt8),
    Sent n.enableTTLOptimize w.populate m data w'.populate ∧ route.Carries E w.populate.data data ∧
      (Regular false route w.populate → m.isEmpty = w.populate.prepareWithEmptyBlock) := by
  cases h with
  | message nodeId peer valid hmem =>
    unfold Forwarder.handleMsg at hmem
    split at hmem
    · rename_i m hm
      split_ifs at hmem with hneed
      · exact ⟨m, _, sent_forward hmem (Forwarder.ttl_ne_one_of_needForwardMsg hneed), rfl,
          fun hw => NetPacket.request_isEmpty hm hw.2⟩
      · cases hmem
    · cases hmem
  | partially nodeId peer succ pBlock hmem =>
    unfold Forwarder.handleReceivedPartiallyPrepare at hmem
    split at hmem
    · rename_i req pBlock hreq
      split_ifs at hmem with hneed hhit
      · exact ⟨_, _, sent_forward hmem (Forwarder.ttl_ne_one_of_needForwardMsg hneed), ⟨req, pBlock, hreq, hhit, rfl⟩,
          fun hw => (PrepareReq.isEmpty_of_decode hreq).trans hw.2.symm⟩
      · cases hmem
      · cases hmem
    · cases hmem
  | missedTxs peer ret data req pBlock c hreq hcached hpacket hmem =>
    unfold Forwarder.onReceiveMissedTxsResponse at hmem
    rw [hcached] at hmem
    dsimp only at hmem
    split_ifs at hmem
    · rw [hpacket] at hmem
      have hhash : c.prepareReq.blockHash = req.blockHash := by simpa using List.find?_some hcached
      exact ⟨_, _, sent_forward hmem (hpacket ▸ c.ttl_ne_one), ⟨_, req, pBlock, hpacket ▸ c.decoded, hhash.symm, rfl⟩,
        fun hw => (PrepareReq.isEmpty_of_decode hreq).trans hw.2.symm⟩
    · cases hmem

lemma Forwarded.sentOn (h : Forwarded E n w w' route) :
    SentOn E n.enableTTLOptimize route w.populate w'.populate ∧
      hops n.enableTTLOptimize w'.populate < hops n.enableTTLOptimize w.populate := by
  obtain ⟨m, data, hsent, hcarries, hflag⟩ := h.sent
  refine ⟨⟨hsent.packetId, hsent.data ▸ hcarries, fun hw => ?_, hsent.ttl⟩, hsent.hops_lt⟩
  cases hopt : n.enableTTLOptimize with
  | true =>
    rw [hopt] at hw
    exact (hsent.unflagged hopt).trans (Eq.symm hw)
  | false =>
    rw [hopt] at hw
    have hpos : w.populate.ttl ≠ 0 := by
      cases route <;> exact hw.1
    exact (hsent.flag hopt hpos).trans (hflag hw)

end

def relay (optimize : Bool) : Forwarder where
  keyPair := 3
  enableTTLOptimize := optimize
  sealerList := [1, 2, 3]
  sessions := [1, 2]

/-- A packet of a prepare request of sealer 1 for an empty block, or one of its sign requests. -/
def sent (packetId ttl : UInt8) : WirePacket :=
  ⟨packetId, ttl, PrepareReq.encode { height := 1, idx := 0, sig := [1], sig2 := [1] }, [2]⟩

/-- The block of the request with its transaction. -/
def oneTransaction : PartiallyBlock where
  header := { number := 1 }
  transactions := [some [7]]

end FiscoBcos
