import FiscoBcos.Lib.Rlp
import FiscoBcos.Chain.Block

/-!
# Fields of consensus messages on the wire

How `RLPStream::operator<<` writes the members of a message and how `RLP` reads them back. An `int64_t` or a `size_t` is
converted to `unsigned`, so that its upper half is lost.
-/

namespace FiscoBcos

open Rlp List UInt8

variable (v : Int) {s : List UInt8} {size : Nat}

def appendUnsigned : List UInt8 :=
  appendInt (v % 2 ^ 32).toNat

def hashBytes (h : Hash) : List UInt8 :=
  replicate (32 - (bigEndian h).length) 0 ++ bigEndian h

def octets (s : Bytes) : List UInt8 :=
  s.map ofNat

def ofOctets (s : List UInt8) : Bytes :=
  s.map toNat

/-- `toInt<int64_t>`; eight bytes may give a negative number. -/
def toInt64 (d : List UInt8) : Option Int :=
  (toInt 8 d).map fun n => (BitVec.ofNat 64 n).toInt

def wrapFields (fields : List (List UInt8)) : List UInt8 :=
  appendList (appendBytes fields.flatten)

def unwrapFields (data : List UInt8) : Option (List UInt8) :=
  (parse data).bind fun d => item d 0

def IsField (e : List UInt8) : Prop :=
  ∃ s, Encodes e s

section

variable {n : Nat} {h : Hash}

lemma fits_bigEndian (h : n < 2 ^ 256) : Fits (bigEndian n) := by
  have hlen : (bigEndian n).length ≤ 32 := length_bigEndian_le.mpr (by omega)
  unfold Fits
  omega

lemma isField_appendInt (h : n < 2 ^ 256) : IsField (appendInt n) := by
  rw [appendInt_eq]
  exact ⟨_, encodes_appendBytes (fits_bigEndian h)⟩

lemma narrow_lt : (v % 2 ^ 32).toNat < 2 ^ 32 := by
  omega

lemma isField_appendUnsigned {v : Int} : IsField (appendUnsigned v) :=
  isField_appendInt ((narrow_lt v).trans (by decide))

lemma isField_appendBytes (h : Fits s) : IsField (appendBytes s) :=
  ⟨s, encodes_appendBytes h⟩

lemma toInt_appendUnsigned (h : (v % 2 ^ 32).toNat < 256 ^ size) :
    toInt size (appendUnsigned v) = some (v % 2 ^ 32).toNat :=
  toInt_appendInt (fits_bigEndian ((narrow_lt v).trans (by decide))) h

lemma toInt64_appendUnsigned : toInt64 (appendUnsigned v) = some (v % 2 ^ 32) := by
  have hlt := narrow_lt v
  unfold toInt64
  rw [toInt_appendUnsigned v (hlt.trans (by decide)), Option.map_some]
  have hword : (BitVec.ofNat 64 (v % 2 ^ 32).toNat).toNat = (v % 2 ^ 32).toNat := by
    rw [BitVec.toNat_ofNat]
    omega
  rw [BitVec.toInt_eq_toNat_of_lt (by omega), hword]
  congr 1
  omega

lemma toInt_appendUnsigned_of_lt (h : n < 256 ^ size) (hsize : size ≤ 4) : toInt size (appendUnsigned n) = some n := by
  have hpow : 256 ^ size ≤ 256 ^ 4 := Nat.pow_le_pow_right (by omega) hsize
  have heq : ((n : Int) % 2 ^ 32).toNat = n := by omega
  rw [toInt_appendUnsigned _ (by rw [heq]; exact h), heq]

lemma toInt_appendInt_of_lt (h : n < 2 ^ 256) : toInt 32 (appendInt n) = some n :=
  toInt_appendInt (fits_bigEndian h) (by omega)

lemma length_hashBytes (hh : h < 2 ^ 256) : (hashBytes h).length = 32 := by
  have hlen : (bigEndian h).length ≤ 32 := length_bigEndian_le.mpr (by omega)
  unfold hashBytes
  rw [length_append, length_replicate]
  omega

lemma fits_hashBytes (hh : h < 2 ^ 256) : Fits (hashBytes h) := by
  unfold Fits
  rw [length_hashBytes hh]
  omega

lemma toHash_hashBytes (hh : h < 2 ^ 256) (full : Bool) : toHash 32 full (appendBytes (hashBytes h)) = some h := by
  have hread := (encodes_appendBytes (fits_hashBytes hh)).toHash full
  rw [length_hashBytes hh] at hread
  rw [hread]
  unfold hashBytes
  rw [ofBigEndian_replicate_append, ofBigEndian_bigEndian]

lemma ofOctets_octets {s : Bytes} (h : ∀ b ∈ s, b < 256) : ofOctets (octets s) = s := by
  unfold ofOctets octets
  rw [map_map]
  calc s.map (toNat ∘ ofNat) = s.map id :=
        map_congr_left fun b hb => toNat_ofNat_of_lt' (h b hb)
    _ = s := map_id s

lemma toBytes_octets {s : Bytes} (hfits : Fits (octets s)) : toBytes (appendBytes (octets s)) = some (octets s) :=
  (encodes_appendBytes hfits).toBytes

end

section

variable {fields : List (List UInt8)}

lemma length_le_wrapFields (fields : List (List UInt8)) : fields.flatten.length ≤ (wrapFields fields).length := by
  have h1 := length_le_appendBytes fields.flatten
  have h2 := length_le_appendList (appendBytes fields.flatten)
  unfold wrapFields
  omega

lemma length_le_flatten {e : List UInt8} (h : e ∈ fields) : e.length ≤ fields.flatten.length :=
  (sublist_flatten_of_mem h).length_le

lemma fits_of_mem_wrapFields (hsize : (wrapFields fields).length < 2 ^ 63) (h : appendBytes s ∈ fields) : Fits s := by
  have h1 := length_le_appendBytes s
  have h2 := length_le_flatten h
  have h3 := length_le_wrapFields fields
  unfold Fits
  omega

lemma unwrapFields_wrapFields (hfields : ∀ e ∈ fields, IsField e) (hsize : (wrapFields fields).length < 2 ^ 63) :
    ∃ rlp, unwrapFields (wrapFields fields) = some rlp ∧ ∀ i, item rlp i = some (fields.getD i []) := by
  have h1 := length_le_wrapFields fields
  have h2 := length_le_appendList (appendBytes fields.flatten)
  have hfits : Fits fields.flatten := by
    unfold Fits
    omega
  have hfits' : Fits (appendBytes fields.flatten) := by
    unfold wrapFields at hsize
    unfold Fits
    omega
  refine ⟨appendBytes fields.flatten, item_appendList_appendBytes hfits hfits', fun i => ?_⟩
  exact (encodes_appendBytes hfits).item hfields i

lemma bind_unwrapFields {α : Type} {populate : List UInt8 → Option α} {x : α}
    (hfields : ∀ e ∈ fields, IsField e) (hsize : (wrapFields fields).length < 2 ^ 63)
    (hpopulate : ∀ rlp, (∀ i, item rlp i = some (fields.getD i [])) → populate rlp = some x) :
    (unwrapFields (wrapFields fields)).bind populate = some x := by
  obtain ⟨rlp, hrlp, hitem⟩ := unwrapFields_wrapFields hfields hsize
  rw [hrlp, Option.bind_some]
  exact hpopulate rlp hitem

end

end FiscoBcos
