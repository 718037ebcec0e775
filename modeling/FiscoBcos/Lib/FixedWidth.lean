import FiscoBcos.Lib.Rlp

/-!
# Numbers of a fixed number of bytes

Big-endian numbers of a fixed width, and the reader that takes them and strings with their size in front off a byte
string. `none` stands for bytes that are missing. Signed numbers wrap around.
-/

namespace FixedWidth

open List

def encode : Nat → Nat → List UInt8
  | 0, _ => []
  | width + 1, n => encode width (n / 256) ++ [UInt8.ofNat n]

def readBytes (size : Nat) (bs : List UInt8) : Option (List UInt8 × List UInt8) :=
  if bs.length < size then none else some (bs.take size, bs.drop size)

def read (width : Nat) (bs : List UInt8) : Option (Nat × List UInt8) :=
  (readBytes width bs).map fun r => (Rlp.ofBigEndian r.1, r.2)

def encodeString (width : Nat) (s : List UInt8) : List UInt8 :=
  encode width s.length ++ s

def readString (width : Nat) (bs : List UInt8) : Option (List UInt8 × List UInt8) :=
  (read width bs).bind fun r => readBytes r.1 r.2

/-- Where arithmetic of `int64_t` ends up. -/
def int64 (x : Int) : Int :=
  x.bmod (2 ^ 64)

lemma int64_of_lt {x : Int} (h : -2 ^ 63 ≤ x) (h' : x < 2 ^ 63) : int64 x = x :=
  Int.bmod_eq_of_le (by omega) (by omega)

variable (width : Nat) {n : Nat} {s : List UInt8}

@[simp]
lemma length_encode (n : Nat) : (encode width n).length = width := by
  induction width generalizing n with
  | zero => rfl
  | succ width ih =>
    unfold encode
    rw [length_append, ih, length_singleton]

lemma ofBigEndian_encode (h : n < 256 ^ width) : Rlp.ofBigEndian (encode width n) = n := by
  induction width generalizing n with
  | zero =>
    change 0 = n
    omega
  | succ width ih =>
    unfold encode
    rw [Rlp.ofBigEndian_append, ih (by omega), UInt8.toNat_ofNat']
    omega

lemma readBytes_append (s rest : List UInt8) : readBytes s.length (s ++ rest) = some (s, rest) := by
  unfold readBytes
  rw [length_append, if_neg (by omega), take_left, drop_left]

lemma read_encode (h : n < 256 ^ width) (rest : List UInt8) : read width (encode width n ++ rest) = some (n, rest) := by
  have hbytes := readBytes_append (encode width n) rest
  rw [length_encode] at hbytes
  unfold read
  rw [hbytes, Option.map_some, ofBigEndian_encode width h]

lemma readString_encodeString (h : s.length < 256 ^ width) (rest : List UInt8) :
    readString width (encodeString width s ++ rest) = some (s, rest) := by
  unfold readString encodeString
  rw [append_assoc, read_encode width h, Option.bind_some, readBytes_append]

lemma read_eq_none (h : s.length < width) : read width s = none := by
  unfold read readBytes
  rw [if_pos h]
  rfl

lemma read_take {m : Nat} (h : width ≤ m) :
    read width (s.take m) = (read width s).map fun r => (r.1, r.2.take (m - width)) := by
  unfold read readBytes
  rw [length_take]
  by_cases hlen : s.length < width
  · rw [if_pos (by omega), if_pos hlen]
    rfl
  · rw [if_neg (by omega), if_neg hlen, take_take, min_eq_left h, drop_take]
    rfl

end FixedWidth
