import FiscoBcos.Lib.Framing
import FiscoBcos.Lib.Run

/-!
# Messages of the network

`P2PMessage`, `P2PMessageRC2` and `ChannelMessage` on the wire, the loop of `Session::doRead` that takes them off a
stream, and a `P2PMessageRC2` that is changed and encoded again.
-/

namespace FiscoBcos

open Framing List Machine UInt16

inductive MessageKind where
  | P2PMessage
  | P2PMessageRC2
  | ChannelMessage
deriving DecidableEq

namespace MessageKind

/-- The header after the length: protocolID, packetType and seq; version, protocolID, packetType and seq; type, seq of 32
bytes and result. -/
def fieldBytes : MessageKind → Nat
  | P2PMessage => 2 + 2 + 4
  | P2PMessageRC2 => 2 + 4 + 2 + 4
  | ChannelMessage => 2 + 32 + 4

variable (k : MessageKind)

def HEADER_LENGTH : Nat :=
  k.fieldBytes + 4

abbrev decode (bytes : List UInt8) : Framing.Decoded :=
  Framing.decode k.fieldBytes bytes

variable (chunks : List (List UInt8))

/-- `Session::doRead` for the chunks that come one after another. -/
def doRead : List Frame × Option (List UInt8) :=
  chunks.foldl (receive k.fieldBytes) ([], some [])

/-- Where in a stream a message begins. -/
inductive Boundary (stream : List UInt8) : List UInt8 → Prop where
  | start : Boundary stream stream
  | next {data header payload : List UInt8} {length : Nat} : Boundary stream data →
      k.decode data = .message length header payload → Boundary stream (data.drop length)

variable {k} {stream data : List UInt8}

lemma read_of_boundary (h : ∀ d, k.Boundary stream d → k.HEADER_LENGTH ≤ d.length → k.HEADER_LENGTH ≤ Framing.length d)
    (hdata : k.Boundary stream data) :
    ∃ frames tail, Framing.read k.fieldBytes data = (frames, some tail) ∧ k.decode tail = .incomplete := by
  induction hn : data.length using Nat.strong_induction_on generalizing data with
  | h n ih =>
    cases hdec : k.decode data with
    | incomplete =>
      exact ⟨[], data, by rw [Framing.read_of_ne_message (by simp [hdec]), if_pos hdec], hdec⟩
    | reversed =>
      obtain ⟨hle, hlt⟩ := Framing.decode_reversed hdec
      exact absurd (h data hdata hle) (not_le.mpr hlt)
    | message l =>
      obtain ⟨hpos, hle, -⟩ := Framing.decode_message hdec
      obtain ⟨frames, tail, hread, htail⟩ := ih (data.drop l).length (by rw [length_drop]; omega) (hdata.next hdec) rfl
      exact ⟨_, tail, by rw [Framing.read_message hdec, hread], htail⟩

lemma doRead_eq : k.doRead chunks = read k.fieldBytes chunks.flatten :=
  @receive_chunks _ [] chunks

/-- If no message announces less than its header, the loop always waits for more bytes in the end; a message is exactly
the bytes it announces; and sent messages come out as they were, whatever the chunks. -/
theorem doRead_frames (k : MessageKind) (chunks : List (List UInt8))
    (h : ∀ data, k.Boundary chunks.flatten data → k.HEADER_LENGTH ≤ data.length → k.HEADER_LENGTH ≤ Framing.length data) :
    (∃ frames tail, k.doRead chunks = (frames, some tail) ∧ k.decode tail = .incomplete) ∧
      (∀ data l header payload, k.decode data = .message l header payload →
        k.HEADER_LENGTH ≤ l ∧ l ≤ data.length ∧ payload = (data.take l).drop k.HEADER_LENGTH) ∧
      ∀ sent : List Framing.Frame, (∀ f ∈ sent, f.Valid k.fieldBytes) →
        chunks.flatten = (sent.map Framing.encode).flatten → k.doRead chunks = (sent, some []) := by
  rw [doRead_eq]
  refine ⟨read_of_boundary h .start, fun data l header payload hdec => Framing.decode_message hdec, fun sent hsent heq => ?_⟩
  rw [heq, Framing.read_encode sent hsent]

def sevens : Frame :=
  ⟨replicate 8 7, [1]⟩

def nines : Frame :=
  ⟨replicate 8 9, [2, 3]⟩

/-- The second chunk ends inside the header of the second message. -/
theorem doRead_frames_two : P2PMessage.doRead [[0, 0, 0], (encode sevens).drop 3 ++ (encode nines).take 6, (encode nines).drop 6] =
    ([sevens, nines], some []) := by
  have hsevens : sevens.Valid P2PMessage.fieldBytes := by simp [sevens, Frame.Valid, fieldBytes]
  have hnines : nines.Valid P2PMessage.fieldBytes := by simp [nines, Frame.Valid, fieldBytes]
  refine (doRead_frames P2PMessage _ fun data hdata => ?_).2.2 [sevens, nines] (by simpa using ⟨hsevens, hnines⟩) rfl
  have hend : data = encode sevens ++ encode nines ∨ data = encode nines ∨ data = [] := by
    induction hdata with
    | start => exact .inl rfl
    | next _ hdec ih =>
      rcases ih with rfl | rfl | rfl
      · rw [show P2PMessage.decode (encode sevens ++ encode nines) = .message 13 _ _ from decode_encode hsevens] at hdec
        cases hdec
        exact .inr (.inl rfl)
      · rw [show P2PMessage.decode (encode nines) = .message 14 _ _ from decode_encode hnines] at hdec
        cases hdec
        exact .inr (.inr rfl)
      · cases hdec
  rcases hend with rfl | rfl | rfl <;> decide +kernel

/-- Twelve zero bytes announce a message of length 0. -/
theorem not_doRead_frames : P2PMessage.decode (replicate 12 0) = .reversed ∧
    P2PMessage.doRead [replicate 12 0] = ([], none) := by
  decide

end MessageKind

/-- Snappy, assumed to be lossless. -/
structure Snappy where
  compress : List UInt8 → List UInt8
  uncompress : List UInt8 → List UInt8
  lossless : ∀ b, uncompress (compress b) = b

def CompressFlag : UInt16 := 0x8000

def c_compressThreshold : Nat := 1024

structure P2PMessageRC2 where
  version : UInt16
  protocolID : UInt32
  packetType : UInt16
  seq : UInt32
  buffer : List UInt8
  cache : List UInt8 := []
  dirty : Bool := true
deriving DecidableEq

namespace P2PMessageRC2

section

variable (snappy : Snappy) (compressEnabled : Bool) (m : P2PMessageRC2)

def compressed : Bool :=
  m.version &&& CompressFlag == CompressFlag

def header : List UInt8 :=
  FixedWidth.encode 2 m.version.toNat ++ (FixedWidth.encode 4 m.protocolID.toNat ++
    (FixedWidth.encode 2 m.packetType.toNat ++ FixedWidth.encode 4 m.seq.toNat))

/-- Header and buffer become the cached bytes, their length in front. -/
def encodeBuffer (encodeBuffer : List UInt8) : P2PMessageRC2 :=
  { m with cache := encode ⟨m.header, encodeBuffer⟩, dirty := false }

/-- The compressed buffer, if it is to be sent. -/
def compress : Option (List UInt8) :=
  if !compressEnabled || m.buffer.length ≤ c_compressThreshold then none
  else if m.compressed then none
  else if (snappy.compress m.buffer).length < 1 then none
  else some (snappy.compress m.buffer)

/-- The bytes are those of `cache`. -/
def encode : P2PMessageRC2 :=
  if m.dirty then
    match m.compress snappy compressEnabled with
    | some data => { m with version := m.version ||| CompressFlag }.encodeBuffer data
    | none => m.encodeBuffer m.buffer
  else m

def ofHeader (header : List UInt8) : P2PMessageRC2 where
  version := ofNat (Rlp.ofBigEndian (header.take 2))
  protocolID := UInt32.ofNat (Rlp.ofBigEndian ((header.drop 2).take 4))
  packetType := ofNat (Rlp.ofBigEndian (((header.drop 2).drop 4).take 2))
  seq := UInt32.ofNat (Rlp.ofBigEndian (((header.drop 2).drop 4).drop 2))
  buffer := []

/-- The message that a complete frame gives. -/
def decode (bytes : List UInt8) : Option P2PMessageRC2 :=
  match MessageKind.P2PMessageRC2.decode bytes with
  | .message _ header payload =>
    let m := ofHeader header
    some (if compressEnabled && m.compressed then
        { m with buffer := snappy.uncompress payload, version := m.version &&& ~~~CompressFlag }
      else { m with buffer := payload })
  | _ => none

inductive Call where
  | setBuffer (buffer : List UInt8)
  | setSeq (seq : UInt32)
  | setProtocolID (protocolID : UInt32)
  | setPacketType (packetType : UInt16)
  | encode

/-- `setField` marks the message as dirty if the value is another one. -/
def step : Call → P2PMessageRC2
  | .setBuffer buffer => { m with buffer := buffer, dirty := true }
  | .setSeq seq => { m with seq := seq, dirty := m.dirty || m.seq != seq }
  | .setProtocolID protocolID => { m with protocolID := protocolID, dirty := m.dirty || m.protocolID != protocolID }
  | .setPacketType packetType => { m with packetType := packetType, dirty := m.dirty || m.packetType != packetType }
  | .encode => m.encode snappy compressEnabled

/-- An encoding works if the message does not still have the flag of an earlier one, and its length has four bytes. -/
def Encodable : Prop :=
  m.dirty → m.compressed = false ∧ m.buffer.length + 16 < 2 ^ 32 ∧ (snappy.compress m.buffer).length + 16 < 2 ^ 32

end

lemma compressed_or (v : UInt16) : (v ||| CompressFlag) &&& CompressFlag = CompressFlag := by
  apply UInt16.eq_of_toBitVec_eq
  ext i hi
  simpa using .inr

lemma reset_or {v : UInt16} (h : v &&& CompressFlag = 0) : (v ||| CompressFlag) &&& ~~~CompressFlag = v := by
  apply UInt16.eq_of_toBitVec_eq
  rw [UInt16.toBitVec_and, UInt16.toBitVec_or, UInt16.toBitVec_not]
  ext i hi
  have hbit := congrArg (fun v => v.toBitVec.getLsbD i) h
  simp at hbit ⊢
  grind

lemma ofHeader_header (m : P2PMessageRC2) : ofHeader m.header = { m with buffer := [], cache := [], dirty := true } := by
  have hword (n : UInt16) : ofNat (Rlp.ofBigEndian (FixedWidth.encode 2 n.toNat)) = n := by
    rw [FixedWidth.ofBigEndian_encode 2 n.toNat_lt, UInt16.ofNat_toNat]
  have hlong (n : UInt32) : UInt32.ofNat (Rlp.ofBigEndian (FixedWidth.encode 4 n.toNat)) = n := by
    rw [FixedWidth.ofBigEndian_encode 4 n.toNat_lt, UInt32.ofNat_toNat]
  simp only [ofHeader, header, take_left' (FixedWidth.length_encode _ _), drop_left' (FixedWidth.length_encode _ _),
    hword, hlong]

variable {snappy : Snappy} {compressEnabled : Bool} {m : P2PMessageRC2} {v : UInt16}

lemma decode_encodeBuffer {payload : List UInt8} (h : payload.length + 16 < 2 ^ 32) :
    decode snappy compressEnabled (m.encodeBuffer payload).cache = some (if compressEnabled && m.compressed then
        { m with buffer := snappy.uncompress payload, version := m.version &&& ~~~CompressFlag, cache := [], dirty := true }
      else { m with buffer := payload, cache := [], dirty := true }) := by
  have hvalid : Framing.Frame.Valid MessageKind.P2PMessageRC2.fieldBytes ⟨m.header, payload⟩ := by
    refine ⟨by simp [header, MessageKind.fieldBytes], ?_⟩
    simp only [MessageKind.fieldBytes]
    omega
  have hdec := @Framing.decode_encode _ [] _ hvalid
  rw [append_nil] at hdec
  unfold decode MessageKind.decode encodeBuffer
  rw [hdec]
  dsimp only
  rw [ofHeader_header]
  rfl

/-- A clean message has its current contents in the cache. -/
structure Faithful (snappy : Snappy) (compressEnabled : Bool) (v : UInt16) (m : P2PMessageRC2) : Prop where
  version : m.version = v ∨ m.version = v ||| CompressFlag
  cache : m.dirty = false → decode snappy compressEnabled m.cache = some { m with version := v, cache := [], dirty := true }

section

variable (hv : v &&& CompressFlag = 0) (h : Faithful snappy compressEnabled v m)

include hv h

lemma faithful_encode (hm : Encodable snappy m) :
    Faithful snappy compressEnabled v (m.encode snappy compressEnabled) ∧ (m.encode snappy compressEnabled).dirty = false := by
  unfold encode
  cases hdirty : m.dirty with
  | false => exact ⟨h, hdirty⟩
  | true =>
    obtain ⟨hflag, hsize, hsize'⟩ := hm hdirty
    have hversion : m.version = v := h.version.resolve_right fun hor => by simp [compressed, hor, compressed_or] at hflag
    rw [if_pos rfl]
    cases hcompress : m.compress snappy compressEnabled with
    | none =>
      refine ⟨⟨h.version, fun _ => ?_⟩, rfl⟩
      rw [decode_encodeBuffer hsize, hflag, Bool.and_false, if_neg Bool.false_ne_true, ← hversion]
      rfl
    | some data =>
      obtain ⟨hon, rfl⟩ : compressEnabled = true ∧ snappy.compress m.buffer = data := by
        unfold compress at hcompress
        grind
      refine ⟨⟨.inr (by rw [← hversion]; rfl), fun _ => ?_⟩, rfl⟩
      rw [decode_encodeBuffer hsize', if_pos (by simp [hon, compressed, compressed_or]), snappy.lossless]
      rw [hversion, reset_or hv]
      rfl

lemma faithful_step (c : Call)
    (hm : c = .encode → Encodable snappy m) : Faithful snappy compressEnabled v (m.step snappy compressEnabled c) := by
  cases c with
  | setBuffer => exact ⟨h.version, fun hclean => by cases hclean⟩
  | encode => exact (faithful_encode hv h (hm rfl)).1
  | _ =>
    refine ⟨h.version, fun hclean => ?_⟩
    simp only [step, Bool.or_eq_false_iff, bne_eq_false_iff_eq] at hclean ⊢
    rw [← hclean.2]
    exact h.cache hclean.1

end

lemma encode_fields : { m.encode snappy compressEnabled with version := v, cache := [], dirty := true } =
    { m with version := v, cache := [], dirty := true } := by
  unfold encode
  split
  · split <;> rfl
  · rfl

/-- The bytes of the last encoding give the current contents back. -/
theorem decode_last_encode (snappy : Snappy) (compressEnabled : Bool) (m : P2PMessageRC2) (hdirty : m.dirty = true)
    (hversion : m.version &&& CompressFlag = 0) (calls : List Call)
    (hcalls : Along (step snappy compressEnabled) (fun s c => c = .encode → Encodable snappy s) m (calls ++ [.encode])) :
    let s := run (step snappy compressEnabled) m calls
    decode snappy compressEnabled (s.encode snappy compressEnabled).cache =
      some { s with version := m.version, cache := [], dirty := true } := by
  obtain ⟨hbefore, hlast, -⟩ := along_append.mp hcalls
  have hs := invariant_run (Faithful snappy compressEnabled m.version)
    (fun s c hc hs => faithful_step hversion hs c hc) ⟨.inl rfl, fun hclean => by rw [hdirty] at hclean; cases hclean⟩ hbefore
  obtain ⟨hfaithful, hclean⟩ := faithful_encode hversion hs (hlast rfl)
  exact (hfaithful.cache hclean).trans (congrArg some encode_fields)

/-- Stands for Snappy in the examples: compressed data has a byte more. -/
def padding : Snappy where
  compress := fun b => 0 :: b
  uncompress := tail
  lossless := fun _ => rfl

def longMessage : P2PMessageRC2 where
  version := 2
  protocolID := 1
  packetType := 0
  seq := 4
  buffer := replicate 1025 1

/-- A short message is sent, gets another number and a long buffer, and is sent twice. -/
theorem decode_last_encode_resent :
    let s := run (step padding true) { longMessage with buffer := [1, 2, 3] }
      [.encode, .setSeq 5, .setBuffer (replicate 1025 1), .encode]
    s.compressed = true ∧ decode padding true (s.encode padding true).cache = some { longMessage with seq := 5 } := by
  refine ⟨by decide +kernel, (decode_last_encode padding true { longMessage with buffer := [1, 2, 3] } rfl (by decide)
    [.encode, .setSeq 5, .setBuffer (replicate 1025 1), .encode] ?_).trans (by decide +kernel)⟩
  refine ⟨fun _ _ => ⟨by decide, by decide, by decide⟩, nofun, nofun, fun _ _ => ⟨by decide, ?_, ?_⟩, fun _ hdirty => ?_, trivial⟩
  · decide +kernel
  · decide +kernel
  · exact absurd hdirty (by decide +kernel)

/-- After `setSeq` the message is sent again with the flag of the first encoding, but not compressed. -/
theorem not_decode_last_encode :
    let s := run (step padding true) longMessage [.encode, .setSeq 5]
    (decode padding true (s.encode padding true).cache).map (fun m => m.buffer.length) = some 1024 ∧
      s.buffer.length = 1025 := by
  decide +kernel

end P2PMessageRC2

end FiscoBcos
