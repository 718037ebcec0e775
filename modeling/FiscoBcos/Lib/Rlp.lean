import Mathlib.Data.Nat.Digits.Lemmas

/-!
# Recursive linear prefix coding

Numbers and byte strings written one after the other, each with its size in front, and the reader of such a sequence: a
number has no leading zero and a bounded size, a hash has its full size, a byte string that is missing is empty.
-/

namespace Rlp

open List Option UInt8

variable {es : List (List UInt8)} {k count base : Nat}

def ofBigEndian (bs : List UInt8) : Nat :=
  bs.foldl (fun n b => n * 256 + b.toNat) 0

def bigEndian (n : Nat) : List UInt8 :=
  (Nat.digits 256 n).reverse.map ofNat

def pushCount (count base : Nat) : List UInt8 :=
  ofNat (base + (bigEndian count).length) :: bigEndian count

def appendBytes (s : List UInt8) : List UInt8 :=
  if s.length = 1 ∧ s.headD 0 < 0x80 then s
  else if s.length < 56 then ofNat (0x80 + s.length) :: s
  else pushCount s.length 0xb7 ++ s

def appendInt (n : Nat) : List UInt8 :=
  if n = 0 then [0x80]
  else if n < 0x80 then [ofNat n]
  else
    let s := bigEndian n
    (if s.length < 56 then [ofNat (0x80 + s.length)] else pushCount s.length 0xb7) ++ s

def appendList (s : List UInt8) : List UInt8 :=
  if s.length < 56 then ofNat (0xc0 + s.length) :: s
  else pushCount s.length 0xf7 ++ s

def requireGood : List UInt8 → Bool
  | [] => false
  | [b] => decide (b.toNat ≠ 0x81)
  | b :: c :: _ => decide (b.toNat ≠ 0x81 ∨ 0x80 ≤ c.toNat)

def isData (d : List UInt8) : Bool :=
  d.head?.any fun b => decide (b.toNat < 0xc0)

def longLength (size : Nat) (rest : List UInt8) : Option Nat :=
  let n := ofBigEndian (rest.take size)
  if rest.length < size then none
  else if rest.head? = some 0 then none
  else if n < 56 then none
  else if 2 ^ 64 - 1 - 0x100 ≤ n then none
  else some n

def length : List UInt8 → Option Nat
  | [] => some 0
  | b :: rest =>
    if requireGood (b :: rest) = false then none
    else if b.toNat < 0x80 then some 1
    else if b.toNat ≤ 0xb7 then some (b.toNat - 0x80)
    else if b.toNat < 0xc0 then longLength (b.toNat - 0xb7) rest
    else if b.toNat ≤ 0xf7 then some (b.toNat - 0xc0)
    else longLength (b.toNat - 0xf7) rest

def payloadOffset : List UInt8 → Nat
  | [] => 1
  | b :: _ =>
    if b.toNat < 0x80 then 0
    else if b.toNat < 0xc0 then 1 + (b.toNat - 0xb7)
    else 1 + (b.toNat - 0xf7)

def cropped (d : List UInt8) (start count : Nat) : List UInt8 :=
  if start ≤ d.length ∧ count ≤ d.length ∧ start + count ≤ d.length then (d.drop start).take count
  else []

def payload (d : List UInt8) : Option (List UInt8) :=
  (length d).bind fun n => if d.length < n then none else some (cropped d (payloadOffset d) n)

def actualSize : List UInt8 → Option Nat
  | [] => some 0
  | b :: rest =>
    if b.toNat < 0x80 then some 1
    else (length (b :: rest)).map fun n => payloadOffset (b :: rest) + n

def sizeAsEncoded (d : List UInt8) : Option Nat :=
  (actualSize d).bind fun n => if d.length < n then none else some n

def nth : Nat → List UInt8 → Option (List UInt8)
  | 0, d => (sizeAsEncoded d).map d.take
  | i + 1, d => (sizeAsEncoded d).bind fun n => if n = 0 then some [] else nth i (d.drop n)

/-- The subscript operator, on a list and on a byte string that is a sequence of items alike. -/
def item (d : List UInt8) (i : Nat) : Option (List UInt8) :=
  (payload d).bind (nth i)

def parse (d : List UInt8) : Option (List UInt8) :=
  (actualSize d).bind fun n => if n = d.length then some d else none

def isInt : List UInt8 → Option Bool
  | [] => some false
  | b :: rest =>
    if requireGood (b :: rest) = false then none
    else if b.toNat < 0x80 then some (b.toNat != 0)
    else if b.toNat = 0x80 then some true
    else if b.toNat ≤ 0xb7 then rest.head?.map fun c => c.toNat != 0
    else if b.toNat < 0xc0 then (rest[b.toNat - 0xb7]?).map fun c => c.toNat != 0
    else some false

def toInt (maxSize : Nat) (d : List UInt8) : Option Nat :=
  if requireGood d = false then none
  else
    (isInt d).bind fun b =>
      if b = false then none
      else (payload d).bind fun p => if maxSize < p.length then none else some (ofBigEndian p)

def toHash (size : Nat) (full : Bool) (d : List UInt8) : Option Nat :=
  if requireGood d = false then none
  else
    (payload d).bind fun p =>
      if isData d = false ∨ size < p.length ∨ (full = true ∧ p.length < size) then none
      else some (ofBigEndian p)

def toBytes (d : List UInt8) : Option (List UInt8) :=
  if isData d = false then some [] else payload d

lemma ofBigEndian_append (l : List UInt8) (b : UInt8) : ofBigEndian (l ++ [b]) = ofBigEndian l * 256 + b.toNat := by
  unfold ofBigEndian
  rw [foldl_append]
  rfl

lemma ofBigEndian_map_reverse {ds : List Nat} (h : ∀ d ∈ ds, d < 256) :
    ofBigEndian (ds.reverse.map ofNat) = Nat.ofDigits 256 ds := by
  induction ds with
  | nil => rfl
  | cons d ds ih =>
    have hd := h d mem_cons_self
    have hrest := ih fun x hx => h x (mem_cons_of_mem _ hx)
    have hbyte : (ofNat d).toNat = d := toNat_ofNat_of_lt' hd
    rw [reverse_cons, map_append, map_singleton, ofBigEndian_append, hrest, hbyte, Nat.ofDigits_cons]
    omega

@[simp]
lemma ofBigEndian_bigEndian (n : Nat) : ofBigEndian (bigEndian n) = n := by
  unfold bigEndian
  rw [ofBigEndian_map_reverse fun d hd => Nat.digits_lt_base (by omega) hd]
  exact Nat.ofDigits_digits 256 n

lemma length_bigEndian_le {n : Nat} : (bigEndian n).length ≤ k ↔ n < 256 ^ k := by
  unfold bigEndian
  rw [length_map, length_reverse]
  exact Nat.digits_length_le_iff (by omega) n

lemma bigEndian_zero : bigEndian 0 = [] := rfl

lemma exists_bigEndian_cons {n : Nat} (h : n ≠ 0) : ∃ b s, bigEndian n = b :: s ∧ b.toNat ≠ 0 := by
  have hne : Nat.digits 256 n ≠ [] := Nat.digits_ne_nil_iff_ne_zero.mpr h
  have hlast := Nat.getLast_digit_ne_zero 256 h
  have hlt := Nat.digits_lt_base (b := 256) (by omega) (getLast_mem hne)
  have hsplit := dropLast_append_getLast hne
  refine ⟨ofNat ((Nat.digits 256 n).getLast hne), (Nat.digits 256 n).dropLast.reverse.map ofNat, ?_, ?_⟩
  · unfold bigEndian
    conv_lhs => rw [← hsplit]
    rw [reverse_append]
    rfl
  · rw [toNat_ofNat_of_lt' hlt]
    exact hlast

lemma ofBigEndian_replicate_append (k : Nat) (s : List UInt8) : ofBigEndian (replicate k 0 ++ s) = ofBigEndian s := by
  unfold ofBigEndian
  rw [foldl_append]
  congr 1
  induction k with
  | zero => rfl
  | succ k ih => exact ih

section Encoding

def Fits (s : List UInt8) : Prop :=
  s.length < 2 ^ 64 - 1 - 0x100

structure Encodes (e s : List UInt8) : Prop where
  good : requireGood e = true
  data : isData e = true
  size : ∀ rest, actualSize (e ++ rest) = some e.length
  payload : payload e = some s

lemma toNat_ofNat_add {n : Nat} (h : base + n < 256) : (ofNat (base + n)).toNat = base + n :=
  toNat_ofNat_of_lt' h

lemma cropped_append (e s : List UInt8) : cropped (e ++ s) e.length s.length = s := by
  unfold cropped
  rw [if_pos (by rw [length_append]; omega), drop_left, take_length]

lemma length_bigEndian_bounds (h : 56 ≤ count) (hmax : count < 2 ^ 64 - 1 - 0x100) :
    1 ≤ (bigEndian count).length ∧ (bigEndian count).length ≤ 8 := by
  obtain ⟨b, s, hs, -⟩ := exists_bigEndian_cons (n := count) (by omega)
  have hle : (bigEndian count).length ≤ 8 := length_bigEndian_le.mpr (by omega)
  rw [hs] at hle ⊢
  exact ⟨Nat.succ_le_succ (Nat.zero_le _), hle⟩

lemma longLength_bigEndian (h : 56 ≤ count) (hmax : count < 2 ^ 64 - 1 - 0x100)
    {s : List UInt8} : longLength (bigEndian count).length (bigEndian count ++ s) = some count := by
  obtain ⟨b, s', hs, hb⟩ := exists_bigEndian_cons (n := count) (by omega)
  have hhead : (bigEndian count ++ s).head? ≠ some 0 := by
    rw [hs]
    intro h0
    cases h0
    exact hb rfl
  unfold longLength
  rw [if_neg (by rw [length_append]; omega), if_neg hhead, take_left, ofBigEndian_bigEndian,
    if_neg (by omega), if_neg (by omega)]

variable {b : UInt8} {s : List UInt8}

lemma exists_pushCount (hs : 56 ≤ s.length) (hfits : Fits s) (hbase : base ≤ 0xf7) :
    ∃ b, pushCount s.length base = b :: bigEndian s.length ∧ b.toNat = base + (bigEndian s.length).length ∧
      1 ≤ (bigEndian s.length).length ∧ (bigEndian s.length).length ≤ 8 := by
  obtain ⟨hpos, hle⟩ := length_bigEndian_bounds hs hfits
  exact ⟨_, rfl, toNat_ofNat_add (by omega), hpos, hle⟩

lemma length_cons {rest : List UInt8} (h : requireGood (b :: rest) = true) : length (b :: rest) =
      if b.toNat < 0x80 then some 1 else if b.toNat ≤ 0xb7 then some (b.toNat - 0x80)
      else if b.toNat < 0xc0 then longLength (b.toNat - 0xb7) rest else if b.toNat ≤ 0xf7 then some (b.toNat - 0xc0)
      else longLength (b.toNat - 0xf7) rest :=
  if_neg (by simp [h])

lemma payloadOffset_cons (b : UInt8) (rest : List UInt8) : payloadOffset (b :: rest) = if b.toNat < 0x80 then 0
      else if b.toNat < 0xc0 then 1 + (b.toNat - 0xb7) else 1 + (b.toNat - 0xf7) :=
  rfl

lemma actualSize_cons (h : ¬b.toNat < 0x80) (rest : List UInt8) :
    actualSize (b :: rest) = (length (b :: rest)).map fun n => payloadOffset (b :: rest) + n :=
  if_neg h

lemma requireGood_of_ne (h : b.toNat ≠ 0x81) (rest : List UInt8) : requireGood (b :: rest) = true := by
  cases rest with
  | nil | cons c rest => simp [requireGood, h]

lemma encodes_singleton (h : b.toNat < 0x80) : Encodes [b] [b] := by
  have hgood : ∀ rest, requireGood (b :: rest) = true := requireGood_of_ne (by omega)
  have hlength : length [b] = some 1 := by
    rw [length_cons (hgood []), if_pos h]
  refine ⟨hgood [], ?_, fun rest => ?_, ?_⟩
  · simp only [isData, head?_cons, any_some, decide_eq_true_eq]
    omega
  · exact if_pos h
  · unfold payload
    rw [hlength]
    change (if 1 < 1 then none else some (cropped [b] (payloadOffset [b]) 1)) = _
    rw [if_neg (by omega), payloadOffset_cons, if_pos h]
    rfl

lemma header_spec {m : List UInt8} (hb : ¬b.toNat < 0x80)
    (hlength : ∀ rest, length (b :: (m ++ (s ++ rest))) = some s.length)
    (hoffset : ∀ rest, payloadOffset (b :: rest) = 1 + m.length) :
    (∀ rest, actualSize (b :: m ++ s ++ rest) = some (b :: m ++ s).length) ∧ payload (b :: m ++ s) = some s := by
  constructor
  · intro rest
    rw [cons_append, cons_append, append_assoc, actualSize_cons hb, hlength, map_some, hoffset]
    congr 1
    simp
    omega
  · have hl := hlength []
    rw [append_nil] at hl
    unfold payload
    rw [cons_append, hl, bind_some, if_neg (by simp; omega), hoffset]
    have hcrop := cropped_append (b :: m) s
    rw [List.length_cons, add_comm] at hcrop
    exact congrArg some hcrop

lemma encodes_short (hs : s.length < 56) (hone : ¬(s.length = 1 ∧ s.headD 0 < 0x80)) :
    Encodes (ofNat (0x80 + s.length) :: s) s := by
  have hbyte := toNat_ofNat_add (show 0x80 + s.length < 256 by omega)
  generalize ofNat (0x80 + s.length) = b at hbyte ⊢
  have hgood : ∀ rest, requireGood (b :: (s ++ rest)) = true := by
    intro rest
    match s, hone with
    | [], _ => exact requireGood_of_ne (by rw [hbyte]; decide) _
    | [c], hone =>
      have hc : ¬c < 0x80 := fun hlt => hone ⟨rfl, hlt⟩
      have hc' : 0x80 ≤ c.toNat := not_lt.mp hc
      simp [requireGood, hc']
    | _ :: _ :: _, _ =>
      refine requireGood_of_ne ?_ _
      rw [hbyte, List.length_cons, List.length_cons]
      omega
  have hlength : ∀ rest, length (b :: (s ++ rest)) = some s.length := by
    intro rest
    rw [length_cons (hgood rest), if_neg (by omega), if_pos (by omega), hbyte, Nat.add_sub_cancel_left]
  have hoffset : ∀ rest, payloadOffset (b :: rest) = 1 := by
    intro rest
    rw [payloadOffset_cons, if_neg (by omega), if_pos (by omega)]
    omega
  obtain ⟨hsize, hpayload⟩ := header_spec (m := []) (by omega) hlength hoffset
  refine ⟨by simpa using hgood [], ?_, hsize, hpayload⟩
  simp only [isData, head?_cons, any_some, decide_eq_true_eq]
  omega

lemma encodes_long (hs : 56 ≤ s.length) (hfits : Fits s) : Encodes (pushCount s.length 0xb7 ++ s) s := by
  obtain ⟨b, hpush, hbyte, hpos, hle⟩ := exists_pushCount hs hfits (show 0xb7 ≤ 0xf7 by decide)
  rw [hpush]
  have hgood : ∀ rest, requireGood (b :: rest) = true := requireGood_of_ne (by omega)
  have hlength : ∀ rest, length (b :: (bigEndian s.length ++ rest)) = some s.length := by
    intro rest
    rw [length_cons (hgood _), if_neg (by omega), if_neg (by omega), if_pos (by omega), hbyte, Nat.add_sub_cancel_left]
    exact longLength_bigEndian hs hfits
  have hoffset : ∀ rest, payloadOffset (b :: rest) = 1 + (bigEndian s.length).length := by
    intro rest
    rw [payloadOffset_cons, if_neg (by omega), if_pos (by omega), hbyte, Nat.add_sub_cancel_left]
  obtain ⟨hsize, hpayload⟩ := header_spec (by omega) (fun rest => hlength (s ++ rest)) hoffset
  refine ⟨hgood _, ?_, hsize, hpayload⟩
  simp only [isData, cons_append, head?_cons, any_some, decide_eq_true_eq]
  omega

lemma encodes_appendBytes (hfits : Fits s) : Encodes (appendBytes s) s := by
  unfold appendBytes
  split
  · rename_i hone
    obtain ⟨b, rfl⟩ := length_eq_one_iff.mp hone.1
    exact encodes_singleton hone.2
  rename_i hone
  split
  · rename_i hshort
    exact encodes_short hshort hone
  · rename_i hlong
    exact encodes_long (not_lt.mp hlong) hfits

lemma appendInt_eq (n : Nat) : appendInt n = appendBytes (bigEndian n) := by
  unfold appendInt
  by_cases h0 : n = 0
  · rw [if_pos h0, h0, bigEndian_zero]
    rfl
  rw [if_neg h0]
  by_cases hsmall : n < 0x80
  · rw [if_pos hsmall]
    have hdigits : bigEndian n = [ofNat n] := by
      unfold bigEndian
      rw [Nat.digits_of_lt 256 n h0 (by omega)]
      rfl
    have hlt : ofNat n < 0x80 := by
      rw [lt_iff_toNat_lt, toNat_ofNat_of_lt' (by unfold size; omega)]
      exact hsmall
    unfold appendBytes
    rw [hdigits, if_pos ⟨rfl, hlt⟩]
  · rw [if_neg hsmall]
    have hone : ¬((bigEndian n).length = 1 ∧ (bigEndian n).headD 0 < 0x80) := by
      rintro ⟨hlen, hhead⟩
      obtain ⟨b, hb⟩ := length_eq_one_iff.mp hlen
      have hn := ofBigEndian_bigEndian n
      rw [hb] at hhead hn
      have hval : b.toNat = n := by simpa [ofBigEndian] using hn
      have hlt : b.toNat < 0x80 := hhead
      omega
    unfold appendBytes
    dsimp only
    split <;> rfl

lemma isInt_appendBytes (hfits : Fits s) (h : ∀ b ∈ s.head?, b.toNat ≠ 0) : isInt (appendBytes s) = some true := by
  have hgood := (encodes_appendBytes hfits).good
  unfold appendBytes at hgood ⊢
  split at hgood
  · rename_i hone
    rw [if_pos hone]
    obtain ⟨b, rfl⟩ := length_eq_one_iff.mp hone.1
    have hb : b.toNat < 0x80 := hone.2
    have hb0 : b.toNat ≠ 0 := h b rfl
    simp [isInt, hgood, hb, hb0]
  · rename_i hone
    rw [if_neg hone]
    split at hgood
    · rename_i hshort
      rw [if_pos hshort]
      have hbyte := toNat_ofNat_add (show 0x80 + s.length < 256 by omega)
      generalize ofNat (0x80 + s.length) = b at hbyte hgood ⊢
      cases s with
      | nil => simp [isInt, hgood, hbyte]
      | cons c =>
        have hc := h c rfl
        rw [List.length_cons] at hbyte hshort
        unfold isInt
        dsimp only
        rw [if_neg (by simp [hgood]), if_neg (by omega), if_neg (by omega), if_pos (by omega)]
        simp [hc]
    · rename_i hlong
      rw [if_neg hlong]
      obtain ⟨b, hpush, hbyte, hpos, hle⟩ := exists_pushCount (not_lt.mp hlong) hfits (show 0xb7 ≤ 0xf7 by decide)
      rw [hpush] at hgood ⊢
      cases s with
      | nil => exact absurd (Nat.zero_lt_succ _) hlong
      | cons c =>
        have hc := h c rfl
        rw [cons_append] at hgood ⊢
        unfold isInt
        dsimp only
        rw [if_neg (by rw [hgood]; simp), if_neg (by omega), if_neg (by omega), if_neg (by omega),
          if_pos (by omega), hbyte, Nat.add_sub_cancel_left, getElem?_append_right (le_rfl),
          Nat.sub_self]
        simp [hc]

end Encoding

section

variable {e s : List UInt8}

lemma Encodes.ne_nil (h : Encodes e s) : e ≠ [] := by
  intro hnil
  have hgood := h.good
  rw [hnil] at hgood
  cases hgood

lemma Encodes.sizeAsEncoded (h : Encodes e s) (rest : List UInt8) : sizeAsEncoded (e ++ rest) = some e.length := by
  unfold Rlp.sizeAsEncoded
  rw [h.size, bind_some, if_neg (by rw [length_append]; omega)]

lemma Encodes.toBytes (h : Encodes e s) : toBytes e = some s := by
  unfold Rlp.toBytes
  rw [h.data, if_neg (by simp), h.payload]

lemma Encodes.toHash (h : Encodes e s) (full : Bool) : toHash s.length full e = some (ofBigEndian s) := by
  unfold Rlp.toHash
  rw [h.good, if_neg (by simp), h.payload, bind_some, h.data, if_neg (by simp)]

lemma toInt_appendInt {n maxSize : Nat} (hfits : Fits (bigEndian n)) (h : n < 256 ^ maxSize) :
    toInt maxSize (appendInt n) = some n := by
  have henc := encodes_appendBytes hfits
  have hint : isInt (appendBytes (bigEndian n)) = some true := by
    apply isInt_appendBytes hfits
    intro b hb
    by_cases h0 : n = 0
    · rw [h0, bigEndian_zero] at hb
      cases hb
    obtain ⟨b', s', hs, hb'⟩ := exists_bigEndian_cons h0
    rw [hs] at hb
    cases hb
    exact hb'
  have hlen := length_bigEndian_le.mpr h
  rw [appendInt_eq]
  unfold toInt
  rw [henc.good, if_neg (by simp), hint, bind_some, if_neg (by simp), henc.payload,
    bind_some, if_neg (by omega), ofBigEndian_bigEndian]

lemma nth_flatten (h : ∀ e ∈ es, ∃ s, Encodes e s) (i : Nat) : nth i es.flatten = some (es.getD i []) := by
  induction i generalizing es with
  | zero =>
    cases es with
    | nil => rfl
    | cons e =>
      obtain ⟨s, hs⟩ := h e mem_cons_self
      unfold nth
      rw [flatten_cons, hs.sizeAsEncoded, map_some, take_left]
      rfl
  | succ i ih =>
    cases es with
    | nil => rfl
    | cons e =>
      obtain ⟨s, hs⟩ := h e mem_cons_self
      have hpos := length_pos_iff.mpr hs.ne_nil
      unfold nth
      rw [flatten_cons, hs.sizeAsEncoded, bind_some, if_neg (by omega), drop_left]
      exact ih fun e' he' => h e' (mem_cons_of_mem _ he')

lemma Encodes.item (he : Encodes e es.flatten)
    (h : ∀ e ∈ es, ∃ s, Encodes e s) (i : Nat) : item e i = some (es.getD i []) := by
  unfold Rlp.item
  rw [he.payload, bind_some, nth_flatten h]

lemma appendList_spec (hfits : Fits s) :
    (∀ rest, actualSize (appendList s ++ rest) = some (appendList s).length) ∧ payload (appendList s) = some s := by
  unfold appendList
  split
  · rename_i hshort
    have hbyte := toNat_ofNat_add (show 0xc0 + s.length < 256 by omega)
    generalize ofNat (0xc0 + s.length) = b at hbyte ⊢
    have hlength : ∀ rest, length (b :: rest) = some s.length := by
      intro rest
      rw [length_cons (requireGood_of_ne (by omega) rest), if_neg (by omega), if_neg (by omega),
        if_neg (by omega), if_pos (by omega), hbyte, Nat.add_sub_cancel_left]
    have hoffset : ∀ rest, payloadOffset (b :: rest) = 1 := by
      intro rest
      rw [payloadOffset_cons, if_neg (by omega), if_neg (by omega)]
      omega
    exact header_spec (m := []) (by omega) (fun rest => hlength (s ++ rest)) hoffset
  · rename_i hlong
    obtain ⟨b, hpush, hbyte, hpos, hle⟩ := exists_pushCount (not_lt.mp hlong) hfits (le_refl 0xf7)
    rw [hpush]
    have hlength : ∀ rest, length (b :: (bigEndian s.length ++ rest)) = some s.length := by
      intro rest
      rw [length_cons (requireGood_of_ne (by omega) _), if_neg (by omega), if_neg (by omega),
        if_neg (by omega), if_neg (by omega), hbyte, Nat.add_sub_cancel_left]
      exact longLength_bigEndian (not_lt.mp hlong) hfits
    have hoffset : ∀ rest, payloadOffset (b :: rest) = 1 + (bigEndian s.length).length := by
      intro rest
      rw [payloadOffset_cons, if_neg (by omega), if_neg (by omega), hbyte, Nat.add_sub_cancel_left]
    exact header_spec (by omega) (fun rest => hlength (s ++ rest)) hoffset

lemma isData_appendList (hfits : Fits s) : isData (appendList s) = false := by
  unfold appendList
  split
  · rename_i hshort
    have hbyte := toNat_ofNat_add (show 0xc0 + s.length < 256 by omega)
    simp only [isData, head?_cons, any_some, decide_eq_false_iff_not]
    omega
  · rename_i hlong
    obtain ⟨b, hpush, hbyte, -, -⟩ := exists_pushCount (not_lt.mp hlong) hfits (le_refl 0xf7)
    simp only [isData, hpush, cons_append, head?_cons, any_some, decide_eq_false_iff_not]
    omega

lemma parse_appendList (hfits : Fits s) : parse (appendList s) = some (appendList s) := by
  have hsize := (appendList_spec hfits).1 []
  rw [append_nil] at hsize
  unfold parse
  rw [hsize, bind_some, if_pos rfl]

lemma length_le_appendBytes (s : List UInt8) : s.length ≤ (appendBytes s).length := by
  unfold appendBytes
  split
  · exact le_rfl
  split
  · exact Nat.le_succ _
  · rw [length_append]
    omega

lemma length_le_appendList (s : List UInt8) : s.length ≤ (appendList s).length := by
  unfold appendList
  split
  · exact Nat.le_succ _
  · rw [length_append]
    omega

lemma item_appendList_appendBytes (hs : Fits s) (hfits : Fits (appendBytes s)) :
    ((parse (appendList (appendBytes s))).bind fun d => item d 0) = some (appendBytes s) := by
  obtain ⟨-, hpayload⟩ := appendList_spec hfits
  have hnth : nth 0 [appendBytes s].flatten = some (appendBytes s) :=
    nth_flatten (by simpa using ⟨s, encodes_appendBytes hs⟩) 0
  rw [parse_appendList hfits, bind_some]
  unfold item
  rw [hpayload, bind_some]
  simpa using hnth

end

section

variable {d rest : List UInt8} {b : UInt8} {n size : Nat}

lemma ofBigEndian_lt (s : List UInt8) : ofBigEndian s < 256 ^ s.length := by
  induction s using reverseRecOn with
  | nil => decide
  | append_singleton s b =>
    have hb := b.toNat_lt
    rw [ofBigEndian_append, length_append, length_singleton, pow_succ]
    omega

lemma longLength_bounds (h : longLength size rest = some n) :
    size ≤ rest.length ∧ rest.head? ≠ some 0 ∧ 56 ≤ n ∧ n < 2 ^ 64 - 1 - 0x100 ∧ n = ofBigEndian (rest.take size) := by
  unfold longLength at h
  simp only [ite_none_left_eq_some, not_lt, not_le, some.injEq] at h
  obtain ⟨hsize, hzero, hsmall, hbig, rfl⟩ := h
  exact ⟨hsize, hzero, hsmall, hbig, rfl⟩

lemma longLength_take (h : longLength size rest = some n) (hk : size ≤ k) (hpos : 0 < k) :
    longLength size (rest.take k) = some n := by
  obtain ⟨hsize, hzero, hsmall, hbig, hn⟩ := longLength_bounds h
  have hhead : (rest.take k).head? = rest.head? := by
    rw [head?_take, if_neg (by omega)]
  unfold longLength
  rw [take_take, min_eq_left hk, ← hn, hhead, if_neg (by rw [length_take]; omega), if_neg hzero,
    if_neg (by omega), if_neg (by omega)]

lemma requireGood_of_length (h : length (b :: rest) = some n) : requireGood (b :: rest) = true := by
  by_contra hbad
  have hnone : length (b :: rest) = none := if_pos (Bool.eq_false_iff.mpr hbad)
  cases hnone.symm.trans h

lemma length_lt (h : length d = some n) : n < 2 ^ 64 - 1 - 0x100 := by
  cases d with
  | nil =>
    cases h
    omega
  | cons =>
    rw [length_cons (requireGood_of_length h)] at h
    split_ifs at h with h1 h2 h3 h4
    · cases h
      omega
    · obtain rfl := some.inj h
      omega
    · exact (longLength_bounds h).2.2.2.1
    · obtain rfl := some.inj h
      omega
    · exact (longLength_bounds h).2.2.2.1

lemma payloadOffset_le (d : List UInt8) : payloadOffset d ≤ 9 := by
  cases d with
  | nil => decide
  | cons b =>
    have hb := b.toNat_lt
    rw [payloadOffset_cons]
    split_ifs <;> omega

lemma actualSize_singleByte (hb : b.toNat < 0x80) : actualSize (b :: rest) = some 1 :=
  if_pos hb

lemma actualSize_pos (h : actualSize (b :: rest) = some n) : 0 < n := by
  by_cases hb : b.toNat < 0x80
  · cases (actualSize_singleByte hb).symm.trans h
    omega
  rw [actualSize_cons hb] at h
  obtain ⟨m, -, rfl⟩ := map_eq_some_iff.mp h
  rw [payloadOffset_cons, if_neg hb]
  split_ifs <;> omega

lemma length_take (hb : ¬b.toNat < 0x80) (h : length (b :: rest) = some n)
    (hk : payloadOffset (b :: rest) + n = k + 1) (hrest : k ≤ rest.length) : length (b :: rest.take k) = some n := by
  have hgood := requireGood_of_length h
  rw [length_cons hgood, if_neg hb] at h
  rw [payloadOffset_cons, if_neg hb] at hk
  have hgood' : requireGood (b :: rest.take k) = true := by
    by_cases h81 : b.toNat = 0x81
    · -- one byte follows, and it is still there
      rw [if_pos (by omega)] at h
      have hn := some.inj h
      rw [if_pos (by omega)] at hk
      obtain rfl : k = 1 := by omega
      cases rest with
      | nil => exact absurd hrest (by decide)
      | cons =>
        simpa [requireGood] using hgood
    · exact requireGood_of_ne h81 _
  rw [length_cons hgood', if_neg hb]
  by_cases h1 : b.toNat ≤ 0xb7
  · rw [if_pos h1] at h ⊢
    exact h
  rw [if_neg h1] at h ⊢
  by_cases h2 : b.toNat < 0xc0
  · rw [if_pos h2] at h hk ⊢
    exact longLength_take h (by omega) (by omega)
  rw [if_neg h2] at h hk ⊢
  by_cases h3 : b.toNat ≤ 0xf7
  · rw [if_pos h3] at h ⊢
    exact h
  rw [if_neg h3] at h ⊢
  exact longLength_take h (by omega) (by omega)

lemma actualSize_take (h : actualSize d = some n) (hn : n ≤ d.length) : actualSize (d.take n) = some n := by
  cases d with
  | nil =>
    cases h
    rfl
  | cons b =>
    obtain ⟨k, rfl⟩ := Nat.exists_eq_succ_of_ne_zero (ne_of_gt (actualSize_pos h))
    rw [take_succ_cons]
    by_cases hb : b.toNat < 0x80
    · rw [actualSize_singleByte hb] at h ⊢
      exact h
    rw [actualSize_cons hb] at h ⊢
    obtain ⟨m, hm, hk⟩ := map_eq_some_iff.mp h
    rw [length_take hb hm hk (Nat.le_of_succ_le_succ hn), map_some]
    exact congrArg some hk

lemma sizeAsEncoded_eq_some : sizeAsEncoded d = some n ↔ actualSize d = some n ∧ n ≤ d.length := by
  unfold sizeAsEncoded
  constructor
  · intro h
    obtain ⟨m, hm, hif⟩ := bind_eq_some_iff.mp h
    obtain ⟨hle, hmn⟩ := ite_none_left_eq_some.mp hif
    cases hmn
    exact ⟨hm, not_lt.mp hle⟩
  · rintro ⟨hm, hn⟩
    rw [hm, bind_some, if_neg (not_lt.mpr hn)]

lemma parse_eq_some {e : List UInt8} : parse d = some e ↔ actualSize d = some d.length ∧ e = d := by
  unfold parse
  constructor
  · intro h
    obtain ⟨m, hm, hif⟩ := bind_eq_some_iff.mp h
    obtain ⟨heq, hde⟩ := ite_none_right_eq_some.mp hif
    exact ⟨heq ▸ hm, (some.inj hde).symm⟩
  · rintro ⟨hm, rfl⟩
    rw [hm, bind_some, if_pos rfl]

end

end Rlp
