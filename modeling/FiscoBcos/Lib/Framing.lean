import FiscoBcos.Lib.FixedWidth

/-!
# Messages framed by their length

A message is a length of four bytes, the other bytes of its header, and its payload; the length counts all of it. A
reader keeps the bytes that have come and takes messages off their front.
-/

namespace Framing

open List

inductive Decoded where
  | incomplete
  /-- The length is below that of the header: the payload would end before it begins. -/
  | reversed
  | message (length : Nat) (header payload : List UInt8)
deriving DecidableEq

structure Frame where
  header : List UInt8
  payload : List UInt8
deriving DecidableEq

/-- `rest` is the length of the header without the four bytes. -/
def Frame.Valid (rest : Nat) (f : Frame) : Prop :=
  f.header.length = rest ∧ rest + 4 + f.payload.length < 2 ^ 32

def encode (f : Frame) : List UInt8 :=
  FixedWidth.encode 4 (f.header.length + 4 + f.payload.length) ++ (f.header ++ f.payload)

def length (bytes : List UInt8) : Nat :=
  Rlp.ofBigEndian (bytes.take 4)

variable (rest : Nat)

def decode (bytes : List UInt8) : Decoded :=
  if bytes.length < rest + 4 then .incomplete
  else if bytes.length < length bytes then .incomplete
  else if length bytes < rest + 4 then .reversed
  else .message (length bytes) ((bytes.drop 4).take rest) ((bytes.take (length bytes)).drop (rest + 4))

/-- At most `n` rounds. The result is the frames and the bytes that are left; `none` if an exception ended the loop. -/
def readLoop : Nat → List UInt8 → List Frame × Option (List UInt8)
  | 0, data => ([], some data)
  | n + 1, data =>
    match decode rest data with
    | .incomplete => ([], some data)
    | .reversed => ([], none)
    | .message length header payload =>
      let r := readLoop n (data.drop length)
      (⟨header, payload⟩ :: r.1, r.2)

def read (data : List UInt8) : List Frame × Option (List UInt8) :=
  readLoop rest data.length data

/-- The bytes come in chunks. -/
def receive (s : List Frame × Option (List UInt8)) (chunk : List UInt8) : List Frame × Option (List UInt8) :=
  match s.2 with
  | none => (s.1, none)
  | some data =>
    let r := read rest (data ++ chunk)
    (s.1 ++ r.1, r.2)

variable {rest} {data more header payload : List UInt8} {l n : Nat}

lemma decode_message (h : decode rest data = .message l header payload) :
    rest + 4 ≤ l ∧ l ≤ data.length ∧ payload = (data.take l).drop (rest + 4) := by
  unfold decode at h
  split at h <;> try cases h
  split at h <;> try cases h
  split at h <;> try cases h
  exact ⟨by omega, by omega, rfl⟩

lemma decode_reversed (h : decode rest data = .reversed) : rest + 4 ≤ data.length ∧ length data < rest + 4 := by
  unfold decode at h
  split at h <;> try cases h
  split at h <;> try cases h
  split at h <;> try cases h
  exact ⟨by omega, by omega⟩

lemma length_append (h : 4 ≤ data.length) : length (data ++ more) = length data := by
  unfold length
  rw [take_append_of_le_length h]

/-- More bytes change nothing once a message is complete. -/
theorem decode_append (h : decode rest data ≠ .incomplete) : decode rest (data ++ more) = decode rest data := by
  unfold decode at h ⊢
  by_cases hshort : data.length < rest + 4
  · exact absurd (if_pos hshort) h
  rw [if_neg hshort] at h ⊢
  by_cases hpart : data.length < length data
  · exact absurd (if_pos hpart) h
  have hle : (data ++ more).length = _ := List.length_append
  rw [length_append (by omega), if_neg (by omega), if_neg (by omega), if_neg hpart, List.drop_append_of_le_length (by omega),
    List.take_append_of_le_length (by rw [List.length_drop]; omega), List.take_append_of_le_length (by omega)]

/-- As many rounds as there are bytes are enough, since every message takes some. -/
theorem readLoop_eq_read (h : data.length ≤ n) : readLoop rest n data = read rest data := by
  unfold read
  induction n using Nat.strong_induction_on generalizing data with
  | h n ih =>
    cases n with
    | zero => rw [Nat.le_zero.mp h]
    | succ n =>
      cases hd : data.length with
      | zero =>
        have hincomplete : decode rest data = .incomplete := if_pos (by omega)
        simp [readLoop, hincomplete]
      | succ k =>
        unfold readLoop
        cases hdec : decode rest data with
        | incomplete | reversed => rfl
        | message l =>
          obtain ⟨hpos, hle, -⟩ := decode_message hdec
          have hdrop := length_drop (i := l) (l := data)
          dsimp only
          rw [ih n (by omega) (by omega), ih k (by omega) (by omega)]

lemma read_message (h : decode rest data = .message l header payload) :
    read rest data = (⟨header, payload⟩ :: (read rest (data.drop l)).1, (read rest (data.drop l)).2) := by
  obtain ⟨hpos, hle, -⟩ := decode_message h
  rw [← readLoop_eq_read (Nat.le_succ data.length), readLoop, h]
  dsimp only
  rw [readLoop_eq_read (by rw [length_drop]; omega)]

lemma read_of_ne_message (h : ∀ l header payload, decode rest data ≠ .message l header payload) :
    read rest data = ([], if decode rest data = .incomplete then some data else none) := by
  rw [← readLoop_eq_read (Nat.le_succ data.length), readLoop]
  split
  case h_1 hdec => rw [hdec, if_pos rfl]
  case h_2 hdec => rw [hdec, if_neg (by decide)]
  case h_3 hdec => exact absurd hdec (h _ _ _)

/-- Bytes that come later are read as if they had come at once. -/
theorem receive_read : receive rest (read rest data) more = read rest (data ++ more) := by
  induction hn : data.length using Nat.strong_induction_on generalizing data with
  | h n ih =>
    cases hdec : decode rest data with
    | incomplete =>
      rw [read_of_ne_message (by simp [hdec]), if_pos hdec]
      rfl
    | reversed =>
      have hne : decode rest data ≠ .incomplete := by simp [hdec]
      have hmore : decode rest (data ++ more) = _ := decode_append hne
      rw [read_of_ne_message (by simp [hdec]), if_neg hne, read_of_ne_message (by simp [hmore, hdec]), hmore, if_neg hne]
      rfl
    | message l =>
      obtain ⟨hpos, hle, -⟩ := decode_message hdec
      have hmore : decode rest (data ++ more) = _ := decode_append (by simp [hdec])
      have hrest := ih (data.drop l).length (by rw [length_drop]; omega) rfl
      rw [read_message hdec, read_message (hmore.trans hdec), drop_append_of_le_length hle, ← hrest]
      unfold receive
      cases (read rest (data.drop l)).2 <;> rfl

/-- What is read does not depend on how the bytes are cut into chunks. -/
theorem receive_chunks (chunks : List (List UInt8)) :
    chunks.foldl (receive rest) (read rest data) = read rest (data ++ chunks.flatten) := by
  induction chunks generalizing data with
  | nil => rw [flatten_nil, append_nil]; rfl
  | cons chunk chunks ih => rw [foldl_cons, receive_read, ih, flatten_cons, append_assoc]

lemma length_encode (f : Frame) : (encode f).length = f.header.length + 4 + f.payload.length := by
  simp only [encode, List.length_append, FixedWidth.length_encode]
  omega

lemma decode_encode {f : Frame} (hf : f.Valid rest) :
    decode rest (encode f ++ more) = .message (encode f).length f.header f.payload := by
  obtain ⟨rfl, hlt⟩ := hf
  have hword := FixedWidth.length_encode 4 (f.header.length + 4 + f.payload.length)
  have hsize := length_encode f
  have happend : (encode f ++ more).length = _ := List.length_append
  have hlength : length (encode f ++ more) = (encode f).length := by
    rw [length_append (by omega), hsize]
    unfold length encode
    rw [List.take_left' hword, FixedWidth.ofBigEndian_encode 4 (by simpa using hlt)]
  have hpayload : (encode f).drop (f.header.length + 4) = f.payload := by
    unfold encode
    rw [← List.append_assoc, List.drop_left' (by rw [List.length_append, hword, add_comm])]
  unfold decode
  rw [hlength, if_neg (by omega), if_neg (by omega), if_neg (by omega), List.take_left, hpayload]
  unfold encode
  rw [List.append_assoc, List.drop_left' hword, List.append_assoc, List.take_left]

lemma read_encode (fs : List Frame) (hfs : ∀ f ∈ fs, f.Valid rest) :
    read rest (fs.map encode).flatten = (fs, some []) := by
  induction fs with
  | nil => rfl
  | cons f fs ih =>
    obtain ⟨hf, hfs⟩ := forall_mem_cons.mp hfs
    rw [map_cons, flatten_cons, read_message (decode_encode hf), drop_left, ih hfs]

end Framing
