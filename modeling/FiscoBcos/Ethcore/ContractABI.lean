import FiscoBcos.Lib.FixedWidth

/-!
# ABI encoding

`libethcore/ABI.h` and `ABI.cpp`: `ContractABI` writes and reads values of the types of Solidity. A value of a dynamic
type stands behind the heads, and its offset among them. The offsets of the reader are of type `size_t`.
-/

namespace FiscoBcos

open List Option FixedWidth

inductive AbiType where
  | int256
  | uint256
  | bool
  | address
  | bytes32
  | string
  | array (t : AbiType) (n : Nat)
  | vector (t : AbiType)
deriving DecidableEq

namespace AbiType

abbrev Value : AbiType → Type
  | int256 => Int
  | uint256 => Nat
  | bool => Bool
  | address | bytes32 | string => List UInt8
  | array t _ | vector t => List t.Value

def dynamic : AbiType → Bool
  | string | vector _ => true
  | array t _ => t.dynamic
  | _ => false

/-- `Length`: how many words the head takes. -/
def length : AbiType → Nat
  | array t n => if t.dynamic then 1 else n * t.length
  | _ => 1

/-- The values of a type, with the integers from `low` on. -/
def Valid (low : Int) : (t : AbiType) → t.Value → Prop
  | int256, (x : Int) => low ≤ x ∧ x < 2 ^ 255
  | uint256, (x : Nat) => x < 2 ^ 256
  | bool, _ | string, _ => True
  | address, (x : List UInt8) => x.length = 20
  | bytes32, (x : List UInt8) => x.length = 32
  | array t n, (xs : List t.Value) => xs.length = n ∧ ∀ x ∈ xs, Valid low t x
  | vector t, (xs : List t.Value) => xs.length < 2 ^ 64 ∧ ∀ x ∈ xs, Valid low t x

end AbiType

namespace ContractABI

def word (n : Nat) : List UInt8 :=
  encode 32 n

def offsetBytes (length : Nat) : List (List UInt8) → List UInt8
  | [] => []
  | out :: outs => word length ++ offsetBytes (length + out.length) outs

def serialise : (t : AbiType) → t.Value → List UInt8
  | .int256, (x : Int) => word (x % 2 ^ 256).toNat
  | .uint256, (x : Nat) => word x
  | .bool, (x : Bool) => word (if x then 1 else 0)
  | .address, (x : List UInt8) => replicate 12 0 ++ x
  | .bytes32, (x : List UInt8) => x
  | .string, (x : List UInt8) => word x.length ++ (x ++ replicate ((x.length + 31) / 32 * 32 - x.length) 0)
  | .array t n, (xs : List t.Value) =>
    (if t.dynamic then offsetBytes (n * 32) (xs.map (serialise t)) else []) ++ (xs.map (serialise t)).flatten
  | .vector t, (xs : List t.Value) =>
    word xs.length ++
      ((if t.dynamic then offsetBytes (xs.length * 32) (xs.map (serialise t)) else []) ++ (xs.map (serialise t)).flatten)

def fixed (offset : Nat) : List (Sigma AbiType.Value) → List UInt8
  | [] => []
  | ⟨t, x⟩ :: xs =>
    if t.dynamic then word offset ++ fixed (offset + (serialise t x).length) xs else serialise t x ++ fixed offset xs

def dynamics : List (Sigma AbiType.Value) → List UInt8
  | [] => []
  | ⟨t, x⟩ :: xs => (if t.dynamic then serialise t x else []) ++ dynamics xs

def abiIn (xs : List (Sigma AbiType.Value)) : List UInt8 :=
  fixed ((xs.map fun x => x.1.length).sum * 32) xs ++ dynamics xs

section

variable (data : List UInt8)

def cropped (begin count : Nat) : List UInt8 :=
  if begin + count ≤ data.length then (data.drop begin).take count else []

/-- The exception `std::length_error` is `none`. -/
def validOffset (offset : Nat) : Option Unit :=
  if data.length ≤ offset % 2 ^ 64 then none else some ()

def populate (bytes : List UInt8) (size : Nat) : List UInt8 :=
  (bytes ++ replicate size 0).take size

def deserialiseU256 (offset : Nat) : Option Nat := do
  validOffset data (offset + 31)
  return Rlp.ofBigEndian (cropped data offset 32)

def deserialiseAll (t : AbiType) (read : Nat → Option t.Value) (offset u : Nat) : Nat → Option (List t.Value)
  | 0 => some []
  | n + 1 => do
    let head := (offset + u * t.length * 32) % 2 ^ 64
    let thisOffset ← if t.dynamic then (deserialiseU256 data head).map fun o => (offset + o) % 2 ^ 64 else some head
    let x ← read thisOffset
    let xs ← deserialiseAll t read offset (u + 1) n
    return x :: xs

def toS256 (u : Nat) : Int :=
  if 0x8fffffffffffffffffffffffffffffffffffffffffffffffffffffffffffffff < u then -(2 ^ 256 - 1 - u + 1) else u

def deserialise : (t : AbiType) → Nat → Option t.Value
  | .int256, offset => (deserialiseU256 data offset).map toS256
  | .uint256, offset => deserialiseU256 data offset
  | .bool, offset => (deserialiseU256 data offset).map fun u => decide (0 < u)
  | .address, offset => (validOffset data (offset + 31)).map fun _ => populate (cropped data ((offset + 12) % 2 ^ 64) 20) 20
  | .bytes32, offset => (validOffset data (offset + 31)).map fun _ => populate (cropped data offset 32) 32
  | .string, offset => do
    let len ← deserialiseU256 data offset
    validOffset data (offset + 32 + len % 2 ^ 64 + (2 ^ 64 - 1))
    return cropped data ((offset + 32) % 2 ^ 64) (len % 2 ^ 64)
  | .array t n, offset => deserialiseAll data t (deserialise t) offset 0 n
  | .vector t, offset => do
    let length ← deserialiseU256 data offset
    deserialiseAll data t (deserialise t) ((offset + 32) % 2 ^ 64) 0 (length % 2 ^ 64)

def abiOutAux (offset : Nat) : List AbiType → Option (List (Sigma AbiType.Value))
  | [] => some []
  | t :: ts => do
    let this ← if t.dynamic then (deserialiseU256 data offset).map fun o => o % 2 ^ 64 else some offset
    let x ← deserialise data t this
    let xs ← abiOutAux ((offset + t.length * 32) % 2 ^ 64) ts
    return ⟨t, x⟩ :: xs

/-- What `deserialise` makes of the bytes that `serialise` writes for a value. -/
def reread : (t : AbiType) → t.Value → t.Value
  | .int256, (x : Int) => toS256 (x % 2 ^ 256).toNat
  | .uint256, x | .bool, x | .address, x | .bytes32, x | .string, x => x
  | .array t _, (xs : List t.Value) => xs.map (reread t)
  | .vector t, (xs : List t.Value) => xs.map (reread t)

/-- `none` is the result `false`. -/
def abiOut (ts : List AbiType) : Option (List (Sigma AbiType.Value)) :=
  abiOutAux data 0 ts

end

section RoundTrip

def At (data : List UInt8) (offset : Nat) (bytes : List UInt8) : Prop :=
  ∃ front rest, data = front ++ (bytes ++ rest) ∧ front.length = offset

variable {data a b : List UInt8} {offset : Nat}

lemma At.left (h : At data offset (a ++ b)) : At data offset a := by
  obtain ⟨front, rest, rfl, hlen⟩ := h
  exact ⟨front, b ++ rest, by rw [append_assoc], hlen⟩

lemma At.right (h : At data offset (a ++ b)) : At data (offset + a.length) b := by
  obtain ⟨front, rest, rfl, rfl⟩ := h
  exact ⟨front ++ a, rest, by simp only [append_assoc], by rw [length_append]⟩

lemma At.length_le (h : At data offset a) : offset + a.length ≤ data.length := by
  obtain ⟨front, rest, rfl, rfl⟩ := h
  simp only [length_append]
  omega

lemma At.cropped (h : At data offset a) : cropped data offset a.length = a := by
  have hlen := h.length_le
  obtain ⟨front, rest, rfl, rfl⟩ := h
  unfold cropped
  rw [if_pos hlen, drop_left, take_left]

lemma At.validOffset (h : At data offset a) (ha : a ≠ []) (hdata : data.length < 2 ^ 64) :
    validOffset data (offset + (a.length - 1)) = some () := by
  have hlen := h.length_le
  have hpos := length_pos_iff.mpr ha
  unfold ContractABI.validOffset
  rw [Nat.mod_eq_of_lt (by omega), if_neg (by omega)]

lemma length_word (n : Nat) : (word n).length = 32 :=
  length_encode 32 n

lemma At.word {n : Nat} (h : At data offset (word n)) (hn : n < 2 ^ 256) (hdata : data.length < 2 ^ 64) :
    deserialiseU256 data offset = some n := by
  have hcrop := h.cropped
  have hvalid := h.validOffset (ne_nil_of_length_eq_add_one (length_word n)) hdata
  rw [length_word] at hcrop hvalid
  unfold deserialiseU256
  rw [hvalid, hcrop]
  exact congrArg some (ofBigEndian_encode 32 (by norm_num at hn ⊢; exact hn))

variable {low : Int}

lemma length_serialise {t : AbiType} (ht : t.dynamic = false) (x : t.Value) (hx : t.Valid low x) :
    (serialise t x).length = t.length * 32 := by
  induction t with
  | int256 | uint256 | bool => exact length_word _
  | address =>
    have hlen : length x = 20 := hx
    change (replicate 12 0 ++ x).length = _
    rw [length_append, hlen]
    rfl
  | bytes32 => exact hx
  | string | vector t => cases ht
  | array t n ih =>
    have htd : t.dynamic = false := ht
    obtain ⟨hlen, hall⟩ : length x = n ∧ ∀ y ∈ x, t.Valid low y := hx
    have hmap : (x.map (serialise t)).map length = x.map fun _ => t.length * 32 := by
      rw [List.map_map]
      exact map_congr_left fun y hy => ih htd y (hall y hy)
    simp only [serialise, AbiType.length, htd, Bool.false_eq_true, if_false, nil_append, length_flatten, hmap]
    simp [hlen, mul_assoc]

lemma length_of_dynamic {t : AbiType} (ht : t.dynamic = true) : t.length = 1 := by
  cases t with
  | array => exact if_pos ht
  | _ => rfl

section

variable {t : AbiType} (hdata : data.length < 2 ^ 64)
  (ih : ∀ (x : t.Value) (offset : Nat), t.Valid low x → At data offset (serialise t x) →
    deserialise data t offset = some (reread t x))

include hdata ih

lemma deserialiseAll_static (ht : t.dynamic = false) (xs : List t.Value) (hxs : ∀ x ∈ xs, t.Valid low x)
    (u : Nat) (hat : At data (offset + u * t.length * 32) (xs.map (serialise t)).flatten) :
    deserialiseAll data t (deserialise data t) offset u xs.length = some (xs.map (reread t)) := by
  induction xs generalizing u with
  | nil => rfl
  | cons x xs ihxs =>
    obtain ⟨hx, hxs⟩ := forall_mem_cons.mp hxs
    have hlen := hat.length_le
    have hrest := hat.right
    rw [length_serialise ht x hx, show offset + u * t.length * 32 + t.length * 32 =
      offset + (u + 1) * t.length * 32 by ring] at hrest
    simp only [deserialiseAll, length_cons, ht, Bool.false_eq_true, if_false, Nat.mod_eq_of_lt (by omega :
      offset + u * t.length * 32 < 2 ^ 64)]
    simp only [bind_eq_bind, bind_some, ih x _ hx hat.left, ihxs hxs (u + 1) hrest]
    rfl

lemma deserialiseAll_dynamic (ht : t.dynamic = true) (xs : List t.Value) (hxs : ∀ x ∈ xs, t.Valid low x)
    (u length : Nat) (hhead : At data (offset + u * 32) (offsetBytes length (xs.map (serialise t))))
    (hat : At data (offset + length) (xs.map (serialise t)).flatten) :
    deserialiseAll data t (deserialise data t) offset u xs.length = some (xs.map (reread t)) := by
  have hone := length_of_dynamic ht
  induction xs generalizing u length with
  | nil => rfl
  | cons x xs ihxs =>
    obtain ⟨hx, hxs⟩ := forall_mem_cons.mp hxs
    have hle := hhead.length_le
    have hle' := hat.length_le
    have hword := At.word (At.left hhead) (by omega) hdata
    have hrest := At.right hhead
    have hlater := hat.right
    rw [length_word, show offset + u * 32 + 32 = offset + (u + 1) * 32 by ring] at hrest
    rw [add_assoc] at hlater
    simp only [deserialiseAll, length_cons, ht, if_true, hone, mul_one, Nat.mod_eq_of_lt (by omega :
      offset + u * 32 < 2 ^ 64), hword, map_some, Nat.mod_eq_of_lt (by omega : offset + length < 2 ^ 64)]
    simp only [bind_eq_bind, bind_some, ih x _ hx hat.left, ihxs hxs (u + 1) _ hrest hlater]
    rfl

lemma deserialiseAll_serialise (xs : List t.Value) (hxs : ∀ x ∈ xs, t.Valid low x)
    (hat : At data offset ((if t.dynamic then offsetBytes (xs.length * 32) (xs.map (serialise t)) else []) ++
      (xs.map (serialise t)).flatten)) : deserialiseAll data t (deserialise data t) offset 0 xs.length =
        some (xs.map (reread t)) := by
  cases ht : t.dynamic with
  | false =>
    rw [ht] at hat
    refine deserialiseAll_static hdata ih ht xs hxs 0 ?_
    simpa using hat
  | true =>
    rw [ht] at hat
    have hlength : ∀ (outs : List (List UInt8)) (length : Nat), (offsetBytes length outs).length = outs.length * 32 := by
      intro outs
      induction outs with
      | nil => exact fun _ => rfl
      | cons out outs ih => simp [offsetBytes, length_word, ih, Nat.succ_mul, add_comm]
    have hcontent := At.right hat
    simp only [if_true, hlength, length_map] at hcontent
    exact deserialiseAll_dynamic hdata ih ht xs hxs 0 _ (by simpa using At.left hat) hcontent

end

lemma toS256_toNat {x : Int} (hge : -2 ^ 255 ≤ x) (hlt : x < 2 ^ 255) :
    toS256 (x % 2 ^ 256).toNat = x ↔ -7 * 2 ^ 252 ≤ x := by
  unfold toS256
  split <;> omega

/-- Only integers below `-7 * 2 ^ 252` come back as others. -/
lemma reread_eq_iff (t : AbiType) (x : t.Value) (hx : t.Valid (-2 ^ 255) x) :
    reread t x = x ↔ t.Valid (-7 * 2 ^ 252) x := by
  have hmap {t : AbiType} {xs : List t.Value} : xs.map (reread t) = xs ↔ ∀ y ∈ xs, reread t y = y := by
    rw [← map_inj_left, List.map_id']
  induction t with
  | int256 => exact (toS256_toNat hx.1 hx.2).trans (and_iff_left hx.2).symm
  | uint256 | bool | address | bytes32 | string => exact iff_of_true rfl hx
  | array t n ih =>
    obtain ⟨hlen, hall⟩ : length x = n ∧ ∀ y ∈ x, t.Valid (-2 ^ 255) y := hx
    exact hmap.trans ((forall₂_congr fun y hy => ih y (hall y hy)).trans (and_iff_right hlen).symm)
  | vector t ih =>
    obtain ⟨hlen, hall⟩ : length x < 2 ^ 64 ∧ ∀ y ∈ x, t.Valid (-2 ^ 255) y := hx
    exact hmap.trans ((forall₂_congr fun y hy => ih y (hall y hy)).trans (and_iff_right hlen).symm)

lemma At.populate (h : At data offset a) : populate (ContractABI.cropped data offset a.length) a.length = a := by
  rw [h.cropped]
  exact take_left

lemma At.string {x : List UInt8} (h : At data offset (serialise .string x)) (hdata : data.length < 2 ^ 64) :
    deserialise data .string offset = some x := by
  have hword := At.left h
  have hat := At.left (At.right h)
  rw [length_word] at hat
  have hlen := hat.length_le
  have hcrop := hat.cropped
  have hvalid : ContractABI.validOffset data (offset + 32 + x.length % 2 ^ 64 + (2 ^ 64 - 1)) = some () := by
    unfold ContractABI.validOffset
    rw [if_neg (by omega)]
  simp only [deserialise, hword.word (by omega) hdata, bind_eq_bind, bind_some, hvalid]
  rw [Nat.mod_eq_of_lt (by omega : x.length < 2 ^ 64), Nat.mod_eq_of_lt (by omega : offset + 32 < 2 ^ 64), hcrop]
  rfl

lemma deserialise_serialise (hdata : data.length < 2 ^ 64) (t : AbiType) (x : t.Value) (offset : Nat) (hx : t.Valid low x)
    (hat : At data offset (serialise t x)) : deserialise data t offset = some (reread t x) := by
  induction t generalizing offset with
  | int256 =>
    have hword := hat.word (by omega) hdata
    simp only [deserialise, hword, map_some, reread]
  | uint256 => exact hat.word hx hdata
  | bool =>
    have hword := hat.word (by split <;> norm_num) hdata
    simp only [deserialise, hword]
    cases x <;> rfl
  | address =>
    have hlen : length x = 20 := hx
    have hright := At.right (a := replicate 12 0) hat
    have hinside := hright.length_le
    have hcrop := hright.populate
    have hvalid := hat.validOffset (by simp [serialise]) hdata
    rw [length_serialise rfl x hx] at hvalid
    rw [hlen, length_replicate, ← Nat.mod_eq_of_lt (by omega : offset + 12 < 2 ^ 64)] at hcrop
    exact (congrArg _ hvalid).trans (congrArg some hcrop)
  | bytes32 =>
    have hlen : length x = 32 := hx
    have hcrop := At.populate (a := x) hat
    have hvalid := At.validOffset (a := x) hat (ne_nil_of_length_eq_add_one hlen) hdata
    rw [hlen] at hcrop hvalid
    exact (congrArg _ hvalid).trans (congrArg some hcrop)
  | string => exact hat.string hdata
  | array t n ih =>
    obtain ⟨hlen, hall⟩ : length x = n ∧ ∀ y ∈ x, t.Valid low y := hx
    have h := @deserialiseAll_serialise data offset low t hdata ih x hall
    rw [hlen] at h
    exact h hat
  | vector t ih =>
    have hword := At.left hat
    have hrest := At.right hat
    have hle := hrest.length_le
    rw [length_word] at hrest hle
    obtain ⟨hcount, hall⟩ : length x < 2 ^ 64 ∧ ∀ y ∈ x, t.Valid low y := hx
    simp only [deserialise, hword.word (by omega) hdata, bind_eq_bind, bind_some]
    rw [Nat.mod_eq_of_lt hcount, Nat.mod_eq_of_lt (by omega : offset + 32 < 2 ^ 64)]
    exact deserialiseAll_serialise hdata ih x hall hrest

/-- Head and tail of the arguments that are left. -/
theorem abiOutAux_abiIn (hdata : data.length < 2 ^ 64) (xs : List (Sigma AbiType.Value))
    (hxs : ∀ x ∈ xs, x.1.Valid low x.2) (tail : Nat) (hfixed : At data offset (fixed tail xs))
    (hdynamic : At data tail (dynamics xs)) :
    abiOutAux data offset (xs.map Sigma.fst) = some (xs.map fun x => ⟨x.1, reread x.1 x.2⟩) := by
  induction xs generalizing offset tail with
  | nil => rfl
  | cons x xs ih =>
    obtain ⟨t, x⟩ := x
    obtain ⟨hx, hxs⟩ := forall_mem_cons.mp hxs
    have htail := hdynamic.length_le
    simp only [fixed, dynamics] at hfixed hdynamic
    simp only [abiOutAux, map_cons]
    cases ht : t.dynamic with
    | false =>
      rw [ht] at hfixed hdynamic
      have hrest := At.right hfixed
      rw [length_serialise ht x hx] at hrest
      have hle := hrest.length_le
      have hread := deserialise_serialise hdata t x offset hx (At.left hfixed)
      simp only [Bool.false_eq_true, if_false, bind_eq_bind, bind_some, hread,
        Nat.mod_eq_of_lt (by omega : offset + t.length * 32 < 2 ^ 64), ih hxs tail hrest hdynamic]
      rfl
    | true =>
      rw [ht] at hfixed hdynamic
      have hrest := At.right hfixed
      rw [length_word, show 32 = t.length * 32 by rw [length_of_dynamic ht]] at hrest
      have hle := hrest.length_le
      have hword := At.word (At.left hfixed) (by omega) hdata
      have hread := deserialise_serialise hdata t x tail hx (At.left hdynamic)
      simp only [if_true, hword, map_some, bind_eq_bind, bind_some, Nat.mod_eq_of_lt (by omega : tail < 2 ^ 64), hread,
        Nat.mod_eq_of_lt (by omega : offset + t.length * 32 < 2 ^ 64), ih hxs _ hrest (At.right hdynamic)]
      rfl

/-- The values are read back from their encoding. -/
def RoundTrip (xs : List (Sigma AbiType.Value)) : Prop :=
  abiOut (abiIn xs) (xs.map Sigma.fst) = some xs

lemma length_fixed (xs : List (Sigma AbiType.Value)) (hxs : ∀ x ∈ xs, x.1.Valid low x.2) (tail : Nat) :
    (fixed tail xs).length = (xs.map fun x => x.1.length).sum * 32 := by
  induction xs generalizing tail with
  | nil => rfl
  | cons x xs ih =>
    obtain ⟨hx, hxs⟩ := forall_mem_cons.mp hxs
    unfold fixed
    split
    case isTrue ht => simp [length_word, ih hxs, length_of_dynamic ht, Nat.add_mul]
    case isFalse ht => simp [length_serialise (by simpa using ht) x.2 hx, ih hxs, Nat.add_mul]

/-- What was written comes back exactly when no integer is below `-7 * 2 ^ 252`. -/
theorem abiOut_abiIn_iff (xs : List (Sigma AbiType.Value)) (hxs : ∀ x ∈ xs, x.1.Valid (-2 ^ 255) x.2)
    (hdata : (abiIn xs).length < 2 ^ 64) : RoundTrip xs ↔ ∀ x ∈ xs, x.1.Valid (-7 * 2 ^ 252) x.2 := by
  have hat : At (abiIn xs) 0 (abiIn xs) := ⟨[], [], by simp, rfl⟩
  have htail := At.right hat
  rw [zero_add, length_fixed xs hxs] at htail
  unfold RoundTrip abiOut
  rw [abiOutAux_abiIn hdata xs hxs _ (At.left hat) htail, some_inj]
  constructor
  · intro h x hx
    have hone := map_inj_left.mp (h.trans (List.map_id' xs).symm) x hx
    exact (reread_eq_iff x.1 x.2 (hxs x hx)).mp (eq_of_heq (Sigma.mk.inj hone).2)
  · intro h
    refine (map_congr_left fun x hx => ?_).trans (List.map_id' xs)
    rw [(reread_eq_iff x.1 x.2 (hxs x hx)).mpr (h x hx)]

def sample : List (Sigma AbiType.Value) :=
  [⟨.vector .string, [[1], [], [2, 3]]⟩, ⟨.array .int256 2, [-5, -7 * 2 ^ 252]⟩, ⟨.string, [7]⟩]

theorem abiOut_abiIn_sample : RoundTrip sample := by
  refine (abiOut_abiIn_iff sample ?_ (by decide +kernel)).mpr ?_ <;> simp [sample, AbiType.Valid]

/-- The smallest integer comes back with the other sign. -/
theorem not_abiOut_abiIn : AbiType.Valid (-2 ^ 255) .int256 (-2 ^ 255) ∧ ¬RoundTrip [⟨.int256, (-2 ^ 255 : Int)⟩] := by
  refine ⟨by simp [AbiType.Valid], fun h => ?_⟩
  have hword : deserialiseU256 (abiIn [⟨.int256, (-2 ^ 255 : Int)⟩]) 0 = some (2 ^ 255) := by decide +kernel
  have hread : toS256 (2 ^ 255) = 2 ^ 255 := by decide +kernel
  have hdynamic : AbiType.int256.dynamic = false := rfl
  simp only [RoundTrip, abiOut, abiOutAux, deserialise, map_cons, map_nil, hdynamic, hword, hread, Bool.false_eq_true,
    if_false, map_some, bind_eq_bind, bind_some] at h
  simp at h

end RoundTrip

end ContractABI

end FiscoBcos
