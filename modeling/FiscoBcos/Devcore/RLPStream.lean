import FiscoBcos.Lib.RlpTree

/-!
# Writing RLP

`appendList` only remembers how many items will follow and where they start; the bytes in front of a list are put there
when its last item has been appended. `none` stands for an exception, or for a write in front of the bytes of the stream.
-/

namespace FiscoBcos

open UInt8

variable (i : Nat)

def bytesRequired : Nat :=
  (Rlp.bigEndian i).length % 2 ^ 32

/-- Items are missing from each list of the stack, the innermost one first, that starts at a place. -/
structure RLPStream where
  out : List UInt8 := []
  listStack : List (Nat × Nat) := []
deriving DecidableEq

variable (s : RLPStream)

namespace RLPStream

/-- The bytes of the number are written backwards from the end, however many bytes were added. -/
def pushInt (br : Nat) (out : List UInt8) : Option (List UInt8) :=
  let resized := out ++ List.replicate br 0
  let digits := Rlp.bigEndian i
  if resized.length < digits.length then none
  else some (resized.take (resized.length - digits.length) ++ digits)

def pushCount (count base : Nat) (out : List UInt8) : Option (List UInt8) :=
  let br := bytesRequired count
  if br + base > 0xff then none else pushInt count br (out ++ [ofNat (br + base)])

def insertHeader (p : Nat) (out : List UInt8) : Option (List UInt8) :=
  let s := out.length - p
  let brs := bytesRequired s
  if s < 56 then some (out.take p ++ ofNat (0xc0 + s) :: out.drop p)
  else if 0xf7 + brs ≤ 0xff then some (out.take p ++ ofNat (0xf7 + brs) :: (Rlp.bigEndian s ++ out.drop p))
  else none

def writeBytes (s out : List UInt8) : Option (List UInt8) :=
  if s.length = 1 ∧ s.headD 0 < 0x80 then some (out ++ s)
  else
    (if s.length < 56 then some (out ++ [ofNat (s.length + 0x80)])
      else pushCount s.length 0xb7 out).map fun out => out ++ s

def writeInt (out : List UInt8) : Option (List UInt8) :=
  if i = 0 then some (out ++ [0x80])
  else if i < 0x80 then some (out ++ [ofNat i])
  else
    let br := bytesRequired i
    (if br < 56 then some (out ++ [ofNat (br + 0x80)])
      else
        let brbr := bytesRequired br
        if 0xb7 + brbr > 0xff then none
        else pushInt br brbr (out ++ [ofNat (0xb7 + brbr)])).bind (pushInt i br)

def completeLists : List (Nat × Nat) → Nat → List UInt8 → Option RLPStream
  | [], _, out => some ⟨out, []⟩
  | (count, p) :: stack, itemCount, out =>
    if count < itemCount then none
    else if count - itemCount ≠ 0 then some ⟨out, (count - itemCount, p) :: stack⟩
    else (insertHeader p out).bind (completeLists stack 1)

def noteAppended (itemCount : Nat) (s : RLPStream) : Option RLPStream :=
  if itemCount = 0 then some s else completeLists s.listStack itemCount s.out

def appendBytes (bytes : List UInt8) (s : RLPStream) : Option RLPStream :=
  (writeBytes bytes s.out).bind fun out => noteAppended 1 { s with out := out }

def appendInt : Option RLPStream :=
  (writeInt i s.out).bind fun out => noteAppended 1 { s with out := out }

def appendList (items : Nat) (s : RLPStream) : Option RLPStream :=
  if items ≠ 0 then some { s with listStack := (items, s.out.length) :: s.listStack }
  else noteAppended 1 { s with out := s.out ++ [0xc0] }

def output : Option (List UInt8) :=
  if s.listStack = [] then some s.out else none

end RLPStream

end FiscoBcos
