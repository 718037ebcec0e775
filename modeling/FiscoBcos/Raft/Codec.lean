import Mathlib.Data.List.GetD
import FiscoBcos.Pbft.Codec
import FiscoBcos.Raft.Message

/-!
# What the codec of the consensus messages keeps

A Raft message arrives with its terms, heights and block numbers modulo 2^32, as a PBFT message does with its height and
view.
-/

namespace FiscoBcos

open Rlp PBFTMsg Option

variable {extra : List (List UInt8)} {rlp : List UInt8}

/-- The fields have values of their types. -/
structure RaftMsg.Typed (m : RaftMsg) : Prop where
  idx : m.idx ≤ MAXIDX
  term : m.term < 2 ^ 64
  height : 0 ≤ m.height ∧ m.height < 2 ^ 63
  blockHash : m.blockHash < 2 ^ 256

structure RaftMsg.Encodable (m : RaftMsg) : Prop extends m.Typed where
  size : m.encode.length < 2 ^ 63

structure RaftVoteReq.Encodable (m : RaftVoteReq) : Prop extends m.toRaftMsg.Typed where
  candidate : m.candidate ≤ MAXIDX
  lastLeaderTerm : m.lastLeaderTerm < 2 ^ 64
  lastBlockNumber : 0 ≤ m.lastBlockNumber ∧ m.lastBlockNumber < 2 ^ 63
  size : m.encode.length < 2 ^ 63

structure RaftVoteResp.Encodable (m : RaftVoteResp) : Prop extends m.toRaftMsg.Typed where
  voteFlag : ∀ b, m.voteFlag ≠ .unknown b
  lastLeaderTerm : m.lastLeaderTerm < 2 ^ 64
  size : m.encode.length < 2 ^ 63

structure RaftHeartBeat.Encodable (m : RaftHeartBeat) : Prop extends m.toRaftMsg.Typed where
  leader : m.leader ≤ MAXIDX
  uncommitedBlock : ∀ b ∈ m.uncommitedBlock, b < 256
  uncommitedBlockNumber : 0 ≤ m.uncommitedBlockNumber ∧ m.uncommitedBlockNumber < 2 ^ 63
  size : m.encode.length < 2 ^ 63

structure RaftHeartBeatResp.Encodable (m : RaftHeartBeatResp) : Prop extends m.toRaftMsg.Typed where
  uncommitedBlockHash : m.uncommitedBlockHash < 2 ^ 256
  size : m.encode.length < 2 ^ 63

section

lemma toInt_idx {n : Nat} (h : n ≤ MAXIDX) : toInt 2 (appendUnsigned n) = some n := by
  unfold MAXIDX at h
  exact toInt_appendUnsigned_of_lt (by omega) (by omega)

lemma toInt_term (n : Nat) : toInt 8 (appendUnsigned n) = some (narrowNat n) := by
  have heq : ((n : Int) % 2 ^ 32).toNat = narrowNat n := by
    unfold narrowNat
    omega
  rw [toInt_appendUnsigned _ ((narrow_lt n).trans (by decide)), heq]

lemma VoteRespFlag.toByte_le {f : VoteRespFlag} (h : ∀ b, f ≠ .unknown b) :
    f.toByte ≤ 6 ∧ VoteRespFlag.ofByte f.toByte = f := by
  cases f with
  | unknown b => exact absurd rfl (h b)
  | _ => exact ⟨by decide, rfl⟩

variable {m : RaftMsg}

lemma RaftMsg.Typed.isField (h : m.Typed) : ∀ e ∈ m.streamRLPFields, IsField e := by
  simp [streamRLPFields, isField_appendUnsigned, isField_appendBytes (fits_hashBytes h.blockHash)]

lemma RaftMsg.Typed.isField_append (h : m.Typed)
    (hextra : ∀ e ∈ extra, IsField e) : ∀ e ∈ m.streamRLPFields ++ extra, IsField e := by
  rw [List.forall_mem_append]
  exact ⟨h.isField, hextra⟩

lemma RaftMsg.Typed.populate (h : m.Typed) (extra : List (List UInt8))
    (hitem : ∀ i, item rlp i = some ((m.streamRLPFields ++ extra).getD i [])) : RaftMsg.populate rlp = some m.narrow := by
  have h0 : item rlp 0 = some (appendUnsigned m.idx) := hitem 0
  have h1 : item rlp 1 = some (appendUnsigned m.term) := hitem 1
  have h2 : item rlp 2 = some (appendUnsigned m.height) := hitem 2
  have h3 : item rlp 3 = some (appendBytes (hashBytes m.blockHash)) := hitem 3
  unfold RaftMsg.populate
  rw [h0, h1, h2, h3]
  simp only [bind_some, toInt_idx h.idx, toInt_term, toInt64_appendUnsigned,
    toHash_hashBytes h.blockHash, bind_eq_bind, pure_def]
  rfl

lemma item_extra (hitem : ∀ i, item rlp i = some ((m.streamRLPFields ++ extra).getD i [])) (i : Nat) :
    item rlp (4 + i) = some (extra.getD i []) := by
  rw [hitem, List.getD_append_right _ _ _ _ (by simp [RaftMsg.streamRLPFields])]
  congr 2
  simp [RaftMsg.streamRLPFields]

lemma RaftMsg.Encodable.decode (h : m.Encodable) : RaftMsg.decode m.encode = some m.narrow := by
  apply bind_unwrapFields h.isField h.size
  intro rlp hitem
  exact h.populate [] (by simpa using hitem)

lemma RaftVoteReq.Encodable.decode {m : RaftVoteReq} (h : m.Encodable) :
    RaftVoteReq.decode m.encode = some m.narrow := by
  refine bind_unwrapFields (h.isField_append ?_) h.size fun rlp hitem => ?_
  · simp [isField_appendUnsigned]
  have h4 : item rlp 4 = some (appendUnsigned m.candidate) := item_extra hitem 0
  have h5 : item rlp 5 = some (appendUnsigned m.lastLeaderTerm) := item_extra hitem 1
  have h6 : item rlp 6 = some (appendUnsigned m.lastBlockNumber) := item_extra hitem 2
  unfold RaftVoteReq.populate
  rw [h.populate _ hitem, h4, h5, h6]
  simp only [bind_some, toInt_idx h.candidate, toInt_term, toInt64_appendUnsigned, bind_eq_bind, pure_def]
  rfl

lemma RaftVoteResp.Encodable.decode {m : RaftVoteResp} (h : m.Encodable) :
    RaftVoteResp.decode m.encode = some m.narrow := by
  obtain ⟨hle, hflag⟩ := VoteRespFlag.toByte_le h.voteFlag
  have hbyte : toInt 1 (appendUnsigned m.voteFlag.toByte) = some m.voteFlag.toByte :=
    toInt_appendUnsigned_of_lt (by omega) (by omega)
  refine bind_unwrapFields (h.isField_append ?_) h.size fun rlp hitem => ?_
  · simp [isField_appendUnsigned]
  have h4 : item rlp 4 = some (appendUnsigned m.voteFlag.toByte) := item_extra hitem 0
  have h5 : item rlp 5 = some (appendUnsigned m.lastLeaderTerm) := item_extra hitem 1
  unfold RaftVoteResp.populate
  rw [h.populate _ hitem, h4, h5]
  simp only [bind_some, hbyte, hflag, toInt_term, bind_eq_bind, pure_def]
  rfl

lemma RaftHeartBeat.Encodable.decode {m : RaftHeartBeat} (h : m.Encodable) :
    RaftHeartBeat.decode m.encode = some m.narrow := by
  have hfits : Fits (octets m.uncommitedBlock) := fits_of_mem_wrapFields h.size (by simp [streamRLPFields])
  refine bind_unwrapFields (h.isField_append ?_) h.size fun rlp hitem => ?_
  · simp [isField_appendUnsigned, isField_appendBytes hfits]
  · have h4 : item rlp 4 = some (appendUnsigned m.leader) := item_extra hitem 0
    have h5 : item rlp 5 = some (appendBytes (octets m.uncommitedBlock)) := item_extra hitem 1
    have h6 : item rlp 6 = some (appendUnsigned m.uncommitedBlockNumber) := item_extra hitem 2
    unfold RaftHeartBeat.populate
    rw [h.populate _ hitem, h4, h5, h6]
    simp only [bind_some, toInt_idx h.leader, toBytes_octets hfits,
      ofOctets_octets h.uncommitedBlock, toInt64_appendUnsigned, bind_eq_bind,
      pure_def]
    rfl

lemma RaftHeartBeatResp.Encodable.decode {m : RaftHeartBeatResp} (h : m.Encodable) :
    RaftHeartBeatResp.decode m.encode = some m.narrow := by
  refine bind_unwrapFields (h.isField_append ?_) h.size fun rlp hitem => ?_
  · simp [isField_appendBytes (fits_hashBytes h.uncommitedBlockHash)]
  have h4 : item rlp 4 = some (appendBytes (hashBytes m.uncommitedBlockHash)) := item_extra hitem 0
  unfold RaftHeartBeatResp.populate
  rw [h.populate _ hitem, h4]
  simp only [bind_some, toHash_hashBytes h.uncommitedBlockHash, bind_eq_bind, pure_def]
  rfl

end

lemma narrowNat_eq_iff {n : Nat} : narrowNat n = n ↔ n < 2 ^ 32 := by
  unfold narrowNat
  omega

lemma narrowInt_eq_iff {v : Int} (h : 0 ≤ v) : narrowInt v = v ↔ v < 2 ^ 32 := by
  unfold narrowInt
  omega

lemma RaftMsg.Typed.narrow_eq_iff {m : RaftMsg} (h : m.Typed) : m.narrow = m ↔ m.term < 2 ^ 32 ∧ m.height < 2 ^ 32 := by
  rw [← narrowNat_eq_iff, ← narrowInt_eq_iff h.height.1]
  cases m
  simp [narrow]

lemma RaftVoteReq.Encodable.narrow_eq_iff {m : RaftVoteReq} (h : m.Encodable) :
    m.narrow = m ↔ (m.term < 2 ^ 32 ∧ m.height < 2 ^ 32) ∧ m.lastLeaderTerm < 2 ^ 32 ∧ m.lastBlockNumber < 2 ^ 32 := by
  rw [← h.toTyped.narrow_eq_iff, ← narrowNat_eq_iff, ← narrowInt_eq_iff h.lastBlockNumber.1]
  cases m
  simp [narrow]

lemma RaftVoteResp.Encodable.narrow_eq_iff {m : RaftVoteResp} (h : m.Encodable) :
    m.narrow = m ↔ (m.term < 2 ^ 32 ∧ m.height < 2 ^ 32) ∧ m.lastLeaderTerm < 2 ^ 32 := by
  rw [← h.toTyped.narrow_eq_iff, ← narrowNat_eq_iff]
  cases m
  simp [narrow]

lemma RaftHeartBeat.Encodable.narrow_eq_iff {m : RaftHeartBeat} (h : m.Encodable) :
    m.narrow = m ↔ (m.term < 2 ^ 32 ∧ m.height < 2 ^ 32) ∧ m.uncommitedBlockNumber < 2 ^ 32 := by
  rw [← h.toTyped.narrow_eq_iff, ← narrowInt_eq_iff h.uncommitedBlockNumber.1]
  cases m
  simp [narrow]

lemma RaftHeartBeatResp.Encodable.narrow_eq_iff {m : RaftHeartBeatResp} (h : m.Encodable) :
    m.narrow = m ↔ m.term < 2 ^ 32 ∧ m.height < 2 ^ 32 := by
  rw [← h.toTyped.narrow_eq_iff]
  cases m
  simp [narrow]

/-- Each kind of message survives encoding and decoding exactly if its 64-bit members are below 2^32, and of two
messages that differ only by multiples of 2^32 there the digests agree. -/
theorem codec_exact_iff (m m' : PBFTMsg) (r : PrepareReq) (raftMsg : RaftMsg) (voteReq : RaftVoteReq)
    (voteResp : RaftVoteResp) (heartBeat : RaftHeartBeat) (heartBeatResp : RaftHeartBeatResp) :
    (m.Encodable → ((decode m.encode).map toWire = some m.toWire ↔ m.height < 2 ^ 32 ∧ m.view < 2 ^ 32)) ∧
    (r.Encodable → ((PrepareReq.decode r.encode).map PrepareReq.toWire = some r.toWire ↔
      r.height < 2 ^ 32 ∧ r.view < 2 ^ 32)) ∧
    (m.Typed → m'.Typed → (m.digestInput = m'.digestInput ↔
      m.height % 2 ^ 32 = m'.height % 2 ^ 32 ∧ m.view % 2 ^ 32 = m'.view % 2 ^ 32 ∧
        m.idx = m'.idx ∧ m.timestamp = m'.timestamp)) ∧
    (raftMsg.Encodable → (RaftMsg.decode raftMsg.encode = some raftMsg ↔
      raftMsg.term < 2 ^ 32 ∧ raftMsg.height < 2 ^ 32)) ∧
    (voteReq.Encodable → (RaftVoteReq.decode voteReq.encode = some voteReq ↔
      (voteReq.term < 2 ^ 32 ∧ voteReq.height < 2 ^ 32) ∧ voteReq.lastLeaderTerm < 2 ^ 32 ∧
        voteReq.lastBlockNumber < 2 ^ 32)) ∧
    (voteResp.Encodable → (RaftVoteResp.decode voteResp.encode = some voteResp ↔
      (voteResp.term < 2 ^ 32 ∧ voteResp.height < 2 ^ 32) ∧ voteResp.lastLeaderTerm < 2 ^ 32)) ∧
    (heartBeat.Encodable → (RaftHeartBeat.decode heartBeat.encode = some heartBeat ↔
      (heartBeat.term < 2 ^ 32 ∧ heartBeat.height < 2 ^ 32) ∧ heartBeat.uncommitedBlockNumber < 2 ^ 32)) ∧
    (heartBeatResp.Encodable → (RaftHeartBeatResp.decode heartBeatResp.encode = some heartBeatResp ↔
      heartBeatResp.term < 2 ^ 32 ∧ heartBeatResp.height < 2 ^ 32)) := by
  refine ⟨fun h => ?_, fun h => ?_, fun h h' => h.digestInput_eq_iff h', fun h => ?_, fun h => ?_,
    fun h => ?_, fun h => ?_, fun h => ?_⟩
  · rw [h.decode_toWire, some_inj]
    exact WireMsg.narrow_eq_iff h.height.1 h.view.1
  · rw [h.decode_toWire, some_inj]
    exact WireMsg.narrow_eq_iff h.height.1 h.view.1
  all_goals rw [h.decode, some_inj, h.narrow_eq_iff]

def PBFTMsg.ofHeight (height : Int) : PBFTMsg :=
  { height := height, view := 0, idx := 0, timestamp := 0 }

lemma PBFTMsg.ofHeight_encodable : (ofHeight 7).Encodable where
  height := by decide
  view := by decide
  idx := by decide
  timestamp := by decide
  blockHash := by decide
  sig := by decide
  sig2 := by decide
  size := by decide +kernel

def sevenPrepare : PrepareReq :=
  { toPBFTMsg := .ofHeight 7, block := [1, 2] }

def sevenVoteReq : RaftVoteReq :=
  { term := 3, height := 7, lastLeaderTerm := 2, lastBlockNumber := 6 }

def sevenHeartBeat : RaftHeartBeat :=
  { term := 3, height := 7, uncommitedBlock := [1, 2], uncommitedBlockNumber := 8 }

theorem codec_exact_height_seven : (decode (ofHeight 7).encode).map toWire = some (ofHeight 7).toWire ∧
      (PrepareReq.decode sevenPrepare.encode).map PrepareReq.toWire = some sevenPrepare.toWire ∧
      (ofHeight 7).digestInput ≠ (ofHeight 8).digestInput ∧ RaftMsg.decode (RaftMsg.encode {}) = some {} ∧
      RaftVoteReq.decode sevenVoteReq.encode = some sevenVoteReq ∧
      RaftVoteResp.decode (RaftVoteResp.encode {}) = some {} ∧
      RaftHeartBeat.decode sevenHeartBeat.encode = some sevenHeartBeat ∧
      RaftHeartBeatResp.decode (RaftHeartBeatResp.encode {}) = some {} := by
  have hmsg := ofHeight_encodable
  have hother : (ofHeight 8).Typed :=
    ⟨by decide, by decide, by decide, by decide, by decide, by decide, by decide⟩
  obtain ⟨h, hprepare, hdigest, hraft, hvoteReq, hvoteResp, hbeat, hresp⟩ :=
    codec_exact_iff (.ofHeight 7) (.ofHeight 8) sevenPrepare {} sevenVoteReq {} sevenHeartBeat {}
  have htyped : ∀ m : RaftMsg, m.idx ≤ MAXIDX → m.term < 2 ^ 64 → 0 ≤ m.height ∧ m.height < 2 ^ 63 →
      m.blockHash < 2 ^ 256 → m.Typed := fun _ => .mk
  refine ⟨(h hmsg).mpr (by decide), (hprepare ⟨hmsg.toTyped, by decide, by decide +kernel⟩).mpr (by decide),
    fun heq => absurd ((hdigest hmsg.toTyped hother).mp heq).1 (by decide),
    (hraft ⟨?_, by decide +kernel⟩).mpr (by decide),
    (hvoteReq ⟨?_, by decide, by decide, by decide, by decide +kernel⟩).mpr (by decide),
    (hvoteResp ⟨?_, nofun, by decide, by decide +kernel⟩).mpr (by decide),
    (hbeat ⟨?_, by decide, by decide, by decide, by decide +kernel⟩).mpr (by decide),
    (hresp ⟨?_, by decide, by decide +kernel⟩).mpr (by decide)⟩
  all_goals exact htyped _ (by decide) (by decide) (by decide) (by decide)

/-- A message of height 2^32 arrives with height 0, its digest is that of height 0, and a Raft message of term 2^32
arrives with term 0. -/
theorem not_codec_exact : (decode (ofHeight (2 ^ 32)).encode).map toWire = some (ofHeight 0).toWire ∧
      (ofHeight (2 ^ 32)).toWire ≠ (ofHeight 0).toWire ∧
      (ofHeight (2 ^ 32)).digestInput = (ofHeight 0).digestInput ∧
      RaftMsg.decode (RaftMsg.encode { term := 2 ^ 32 }) = some { term := 0 } := by
  decide +kernel

end FiscoBcos
