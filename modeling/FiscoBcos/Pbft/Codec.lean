import FiscoBcos.Chain.WireFields
import FiscoBcos.Pbft.Message

/-!
# The codec of PBFT messages

`encode` and `decode` of `PBFTMsg` and `PrepareReq` down to the bytes, and the bytes that
`fieldsWithoutBlock` hashes. `SignReq`, `CommitReq` and `ViewChangeReq` have no fields of their own.
-/

namespace FiscoBcos

open Rlp List Option WireMsg PBFTMsg

variable (data : List UInt8) {w : WireMsg}

def PBFTMsg.streamRLPFields (m : PBFTMsg) : List (List UInt8) :=
  [appendUnsigned m.height, appendUnsigned m.view, appendUnsigned m.idx, appendInt m.timestamp,
    appendBytes (hashBytes m.blockHash), appendBytes (octets m.sig),
    appendBytes (octets m.sig2)]

def PrepareReq.streamRLPFields (r : PrepareReq) : List (List UInt8) :=
  r.toPBFTMsg.streamRLPFields ++ [appendBytes (octets r.block)]

def PBFTMsg.encode (m : PBFTMsg) : List UInt8 :=
  wrapFields m.streamRLPFields

def PrepareReq.encode (r : PrepareReq) : List UInt8 :=
  wrapFields r.streamRLPFields

def PBFTMsg.digestFields (m : PBFTMsg) : List (List UInt8) :=
  [appendUnsigned m.height, appendUnsigned m.view, appendUnsigned m.idx, appendInt m.timestamp]

def PBFTMsg.digestInput (m : PBFTMsg) : List UInt8 :=
  m.digestFields.flatten

def WireMsg.populate (rlp : List UInt8) : Option WireMsg := do
  let height ← (item rlp 0).bind toInt64
  let view ← (item rlp 1).bind toInt64
  let idx ← (item rlp 2).bind (toInt 2)
  let timestamp ← (item rlp 3).bind (toInt 32)
  let blockHash ← (item rlp 4).bind (toHash 32 true)
  let sig ← (item rlp 5).bind toBytes
  let sig2 ← (item rlp 6).bind toBytes
  let block := (item rlp 7).bind toBytes
  return ⟨height, view, idx, timestamp, blockHash, ofOctets sig, ofOctets sig2, block.map ofOctets⟩

def WireMsg.decode : Option WireMsg :=
  (unwrapFields data).bind populate

def PBFTMsg.decode : Option PBFTMsg :=
  (WireMsg.decode data).bind WireMsg.toMsg

def PrepareReq.decode : Option PrepareReq :=
  (WireMsg.decode data).bind fun w =>
    w.toMsg.bind fun m => w.block.map fun block => { toPBFTMsg := m, block := block }

def PBFTMsg.toWire (m : PBFTMsg) : WireMsg where
  height := m.height
  view := m.view
  idx := m.idx
  timestamp := m.timestamp
  blockHash := m.blockHash
  sig := m.sig
  sig2 := m.sig2

structure PBFTMsg.Typed (m : PBFTMsg) : Prop where
  height : 0 ≤ m.height ∧ m.height < 2 ^ 63
  view : 0 ≤ m.view ∧ m.view < 2 ^ 63
  idx : m.idx ≤ MAXIDX
  timestamp : m.timestamp < 2 ^ 256
  blockHash : m.blockHash < 2 ^ 256
  sig : ∀ b ∈ m.sig, b < 256
  sig2 : ∀ b ∈ m.sig2, b < 256

structure PBFTMsg.Encodable (m : PBFTMsg) : Prop extends m.Typed where
  size : m.encode.length < 2 ^ 63

structure PrepareReq.Encodable (r : PrepareReq) : Prop extends r.toPBFTMsg.Typed where
  block : ∀ b ∈ r.block, b < 256
  size : r.encode.length < 2 ^ 63

variable {m m' : PBFTMsg} {r : PrepareReq}

section

variable (h : m.Typed) (hsig : Fits (octets m.sig)) (hsig2 : Fits (octets m.sig2))

include h hsig hsig2

lemma PBFTMsg.Typed.isField : ∀ e ∈ m.streamRLPFields, IsField e := by
  simp [streamRLPFields, isField_appendUnsigned, isField_appendInt h.timestamp,
    isField_appendBytes (fits_hashBytes h.blockHash), isField_appendBytes hsig, isField_appendBytes hsig2]

lemma PBFTMsg.Typed.populate {rlp : List UInt8} (extra : List (List UInt8))
    (hitem : ∀ i, item rlp i = some ((m.streamRLPFields ++ extra).getD i [])) :
    populate rlp = some { m.toWire.narrow with
        block := (toBytes (extra.getD 0 [])).map ofOctets } := by
  have hidx : toInt 2 (appendUnsigned m.idx) = some m.idx := by
    have hlt := h.idx
    unfold MAXIDX at hlt
    exact toInt_appendUnsigned_of_lt (by omega) (by omega)
  have h0 : item rlp 0 = some (appendUnsigned m.height) := hitem 0
  have h1 : item rlp 1 = some (appendUnsigned m.view) := hitem 1
  have h2 : item rlp 2 = some (appendUnsigned m.idx) := hitem 2
  have h3 : item rlp 3 = some (appendInt m.timestamp) := hitem 3
  have h4 : item rlp 4 = some (appendBytes (hashBytes m.blockHash)) := hitem 4
  have h5 : item rlp 5 = some (appendBytes (octets m.sig)) := hitem 5
  have h6 : item rlp 6 = some (appendBytes (octets m.sig2)) := hitem 6
  have h7 : item rlp 7 = some (extra.getD 0 []) := hitem 7
  unfold WireMsg.populate
  rw [h0, h1, h2, h3, h4, h5, h6, h7]
  simp only [bind_some, toInt64_appendUnsigned, hidx, toInt_appendInt_of_lt h.timestamp,
    toHash_hashBytes h.blockHash, toBytes_octets hsig, toBytes_octets hsig2, ofOctets_octets h.sig,
    ofOctets_octets h.sig2, Option.bind_eq_bind, Option.pure_def]
  rfl

end

lemma PBFTMsg.Encodable.decode (h : m.Encodable) :
    WireMsg.decode m.encode = some { m.toWire.narrow with block := some [] } := by
  have hsig : Fits (octets m.sig) := fits_of_mem_wrapFields h.size (by simp [streamRLPFields])
  have hsig2 : Fits (octets m.sig2) := fits_of_mem_wrapFields h.size (by simp [streamRLPFields])
  apply bind_unwrapFields (h.isField hsig hsig2) h.size
  intro rlp hitem
  rw [h.populate hsig hsig2 [] (by simpa using hitem)]
  rfl

lemma PrepareReq.Encodable.decode (h : r.Encodable) : WireMsg.decode r.encode = some r.toWire.narrow := by
  have hmem : ∀ s : List UInt8, appendBytes s ∈ r.streamRLPFields → Fits s :=
    fun s hs => fits_of_mem_wrapFields h.size hs
  have hsig : Fits (octets r.sig) := hmem _ (by simp [streamRLPFields, PBFTMsg.streamRLPFields])
  have hsig2 : Fits (octets r.sig2) := hmem _ (by simp [streamRLPFields, PBFTMsg.streamRLPFields])
  have hblock : Fits (octets r.block) := hmem _ (by simp [streamRLPFields])
  have hfields : ∀ e ∈ r.streamRLPFields, IsField e := by
    intro e he
    rcases mem_append.mp he with hmsg | hlast
    · exact h.toTyped.isField hsig hsig2 e hmsg
    · rw [mem_singleton.mp hlast]
      exact isField_appendBytes hblock
  apply bind_unwrapFields hfields h.size
  intro rlp hitem
  rw [h.toTyped.populate hsig hsig2 _ hitem]
  change some { r.toPBFTMsg.toWire.narrow with
    block := (toBytes (appendBytes (octets r.block))).map ofOctets } = _
  rw [toBytes_octets hblock, map_some, ofOctets_octets h.block]
  rfl

lemma WireMsg.toMsg_of_le (h : w.idx ≤ MAXIDX) : w.toMsg = some
    { height := w.height, view := w.view, idx := w.idx, timestamp := w.timestamp
      blockHash := w.blockHash, sig := w.sig, sig2 := w.sig2 } :=
  if_pos h

lemma PBFTMsg.Encodable.decode_toWire (h : m.Encodable) :
    (PBFTMsg.decode m.encode).map PBFTMsg.toWire = some m.toWire.narrow := by
  have hmsg := WireMsg.toMsg_of_le (w := { m.toWire.narrow with block := some [] }) h.idx
  unfold PBFTMsg.decode
  rw [h.decode, bind_some, hmsg]
  rfl

lemma PrepareReq.Encodable.decode_toWire (h : r.Encodable) :
    (PrepareReq.decode r.encode).map PrepareReq.toWire = some r.toWire.narrow := by
  have hmsg := WireMsg.toMsg_of_le (w := r.toWire.narrow) h.idx
  unfold PrepareReq.decode
  rw [h.decode, bind_some, hmsg]
  rfl

lemma WireMsg.narrow_eq_iff (hheight : 0 ≤ w.height) (hview : 0 ≤ w.view) :
    w.narrow = w ↔ w.height < 2 ^ 32 ∧ w.view < 2 ^ 32 := by
  constructor
  · intro h
    have h1 : w.height % 2 ^ 32 = w.height := congrArg height h
    have h2 : w.view % 2 ^ 32 = w.view := congrArg view h
    omega
  · rintro ⟨h1, h2⟩
    have h1' : w.height % 2 ^ 32 = w.height := Int.emod_eq_of_lt hheight h1
    have h2' : w.view % 2 ^ 32 = w.view := Int.emod_eq_of_lt hview h2
    unfold narrow
    rw [h1', h2']

lemma PBFTMsg.Typed.digestInput_eq_iff (h : m.Typed) (h' : m'.Typed) :
    m.digestInput = m'.digestInput ↔ m.height % 2 ^ 32 = m'.height % 2 ^ 32 ∧
      m.view % 2 ^ 32 = m'.view % 2 ^ 32 ∧ m.idx = m'.idx ∧ m.timestamp = m'.timestamp := by
  constructor
  · intro heq
    have hfields : ∀ {x : PBFTMsg}, x.Typed → ∀ i, nth i x.digestInput = some (x.digestFields.getD i []) := by
      intro x hx
      have hall : ∀ e ∈ x.digestFields, IsField e := by
        simp [digestFields, isField_appendUnsigned, isField_appendInt hx.timestamp]
      exact nth_flatten hall
    have hnth : ∀ i, m.digestFields.getD i [] = m'.digestFields.getD i [] := by
      intro i
      have hm := hfields h i
      rw [heq, hfields h' i] at hm
      exact (some.inj hm).symm
    have hread : ∀ {v v' : Int}, appendUnsigned v = appendUnsigned v' → v % 2 ^ 32 = v' % 2 ^ 32 := by
      intro v v' hv
      have hv' := congrArg toInt64 hv
      rw [toInt64_appendUnsigned, toInt64_appendUnsigned] at hv'
      exact some.inj hv'
    have hidx := hread (hnth 2)
    have hidx_le := h.idx
    have hidx_le' := h'.idx
    have htime := congrArg (toInt 32) (hnth 3)
    change toInt 32 (appendInt m.timestamp) = toInt 32 (appendInt m'.timestamp) at htime
    rw [toInt_appendInt_of_lt h.timestamp, toInt_appendInt_of_lt h'.timestamp] at htime
    unfold MAXIDX at hidx_le hidx_le'
    exact ⟨hread (hnth 0), hread (hnth 1), by omega, some.inj htime⟩
  · rintro ⟨hheight, hview, hidx, htime⟩
    unfold digestInput digestFields appendUnsigned
    rw [hheight, hview, hidx, htime]

end FiscoBcos
