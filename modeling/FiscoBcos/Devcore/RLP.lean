import FiscoBcos.Lib.Loop
import FiscoBcos.Lib.Rlp

/-!
# RLP nodes

The items of a list are counted (`items`), walked through (`begin`, `end`, `++`) and looked up by their index
(`operator[]`, which remembers how far it has read). The end of a walk is found by comparing places.
-/

namespace FiscoBcos

/-- `bytesConstRef`: a place in the bytes, or the null pointer, and a size. -/
structure BytesRef where
  data : Option Nat
  count : Nat
deriving DecidableEq

variable (r : BytesRef) (start : Nat)

namespace BytesRef

def null : BytesRef := ⟨none, 0⟩

/-- Out of bounds in any way, the null reference. No reference is so large that the special value of
`_count` passes the test. -/
def cropped (count : Nat) : BytesRef :=
  match r.data with
  | none => null
  | some p =>
    if start ≤ r.count ∧ count ≤ r.count ∧ start + count ≤ r.count then ⟨some (p + start), count⟩ else null

def croppedFrom : BytesRef :=
  match r.data with
  | none => null
  | some p => if start ≤ r.count then ⟨some (p + start), r.count - start⟩ else null

def next : BytesRef :=
  match r.data with
  | none => r
  | some p => ⟨some (p + r.count), r.count⟩

def bytes (d : List UInt8) : List UInt8 :=
  (d.drop (r.data.getD 0)).take r.count

end BytesRef

namespace RLP

variable (d : List UInt8)

def isList : Bool :=
  d.head?.any fun b => decide (0xc0 ≤ b.toNat)

def data : BytesRef := ⟨some 0, d.length⟩

def payload : Option BytesRef :=
  (Rlp.length d).bind fun l =>
    if d.length < l then none else some ((data d).cropped (Rlp.payloadOffset d) l)

def sizeAsEncoded (r : BytesRef) : Option Nat :=
  Rlp.sizeAsEncoded (r.bytes d)

structure Strictness where
  throwOnFail : Bool
  failIfTooBig : Bool
  failIfTooSmall : Bool

def veryStrict : Strictness := ⟨true, true, true⟩

def laissezFaire : Strictness := ⟨false, false, false⟩

def check (s : Strictness) (flag : Bool) (fails : Nat → Bool) (data : List UInt8) : Option (List UInt8) :=
  if flag = false then some data
  else
    (Rlp.actualSize data).bind fun n =>
      if fails n = false then some data else if s.throwOnFail then none else some []

def construct (s : Strictness) : Option (List UInt8) :=
  (check s s.failIfTooBig (fun n => decide (n < d.length)) d).bind fun data =>
    check s s.failIfTooSmall (fun n => decide (d.length < n)) data

def itemsRound (s : BytesRef × Nat) : (BytesRef × Nat) ⊕ Option Nat :=
  if s.1.count = 0 then .inr (some s.2)
  else
    match sizeAsEncoded d s.1 with
    | none => .inr none
    | some n => .inl (s.1.croppedFrom n, s.2 + 1)

def Items (result : Option Nat) : Prop :=
  if isList d then (payload d).elim (result = none) fun p => Loop.Ends (itemsRound d) (p, 0) result
  else result = some 0

structure Iterator where
  remaining : Nat
  currentItem : BytesRef
deriving DecidableEq

def endIterator : Iterator := ⟨0, (data d).croppedFrom d.length⟩

def beginIterator : Option Iterator :=
  if isList d then
    (payload d).bind fun pl =>
      (sizeAsEncoded d pl).map fun n =>
        let currentItem := pl.cropped 0 n
        ⟨pl.count - currentItem.count, currentItem⟩
  else some (endIterator d)

def Iterator.next (it : Iterator) : Option Iterator :=
  if it.remaining ≠ 0 then
    let r : BytesRef := ⟨it.currentItem.next.data, it.remaining⟩
    (sizeAsEncoded d r).map fun n =>
      let currentItem := r.cropped 0 n
      ⟨it.remaining - min it.remaining currentItem.count, currentItem⟩
  else some ⟨0, ⟨it.currentItem.next.data, 0⟩⟩

/-- `operator*`: a node over the current item, which has to be one item and no more. -/
def Iterator.item (it : Iterator) : Option BytesRef :=
  (Rlp.parse (it.currentItem.bytes d)).map fun _ => it.currentItem

/-- A round of `for (auto const& i : *this)`: the iterator, and the items so far. Iterators are equal if their
current items are. -/
def iterationRound (s : Iterator × List BytesRef) : (Iterator × List BytesRef) ⊕ Option (List BytesRef) :=
  if s.1.currentItem = (endIterator d).currentItem then .inr (some s.2)
  else
    match s.1.item d, s.1.next d with
    | some item, some it => .inl (it, s.2 ++ [item])
    | _, _ => .inr none

def Iteration (result : Option (List BytesRef)) : Prop :=
  (beginIterator d).elim (result = none) fun it => Loop.Ends (iterationRound d) (it, []) result

structure Cursor where
  lastIndex : Nat := 2 ^ 64 - 1
  lastEnd : Nat := 0
  lastItem : BytesRef := .null
deriving DecidableEq

def rewind : Option Cursor :=
  (payload d).bind fun p => (sizeAsEncoded d p).map fun n => ⟨0, n, p.cropped 0 n⟩

def advance : Nat → Cursor → Bool × Cursor
  | 0, c => (true, c)
  | k + 1, c =>
    if c.lastItem.count = 0 then (true, c)
    else
      match payload d with
      | none => (false, c)
      | some p =>
        let rest := p.croppedFrom c.lastEnd
        match sizeAsEncoded d rest with
        | none => (false, { c with lastItem := rest })
        | some n =>
          let lastItem := rest.cropped 0 n
          advance k ⟨c.lastIndex + 1, c.lastEnd + lastItem.count, lastItem⟩

/-- A node over an item; without bytes it is the null node, wherever it points. -/
def node (r : BytesRef) : Option BytesRef :=
  (sizeAsEncoded d r).map fun _ => if r.count = 0 then .null else r

def subscript (i : Nat) (c : Cursor) : Option BytesRef × Cursor :=
  match if i < c.lastIndex then rewind d else some c with
  | none => (none, c)
  | some c =>
    let (ok, c) := advance d (i - c.lastIndex) c
    (if ok then node d c.lastItem else none, c)

def subscripts : List UInt64 → Cursor → List (Option BytesRef) × Cursor
  | [], c => ([], c)
  | i :: is, c =>
    let (result, c) := subscript d i.toNat c
    let (results, c) := subscripts is c
    (result :: results, c)

end RLP

end FiscoBcos
