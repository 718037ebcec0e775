import FiscoBcos.Lib.Rlp

/-!
# The coding is canonical

Bytes that are read as one item are the coding of what is read: a size is only accepted in its shortest form.
-/

namespace Rlp

open List Option

variable {d s rest : List UInt8} {b : UInt8} {n size : Nat}

lemma bigEndian_ofBigEndian (h : s.head? ≠ some 0) : bigEndian (ofBigEndian s) = s := by
  have hbytes : ((s.map UInt8.toNat).reverse.reverse).map UInt8.ofNat = s := by
    rw [List.reverse_reverse, List.map_map]
    exact (map_congr_left fun c _ => UInt8.ofNat_toNat).trans (map_id s)
  have hlt : ∀ x ∈ (s.map UInt8.toNat).reverse, x < 256 := by
    intro x hx
    obtain ⟨c, -, rfl⟩ := mem_map.mp (mem_reverse.mp hx)
    exact c.toNat_lt
  have hvalue := ofBigEndian_map_reverse hlt
  rw [hbytes] at hvalue
  unfold bigEndian
  rw [hvalue, Nat.digits_ofDigits 256 (by omega) _ hlt, hbytes]
  intro hne hlast
  rw [getLast_reverse] at hlast
  cases s with
  | nil => exact hne rfl
  | cons =>
    apply h
    exact congrArg some (UInt8.toNat_inj.mp hlast)

lemma longLength_split (h : longLength size rest = some n) (hn : size + n = rest.length) :
    rest = bigEndian n ++ rest.drop size ∧ (rest.drop size).length = n ∧ (bigEndian n).length = size := by
  obtain ⟨hsize, hzero, hsmall, -, hvalue⟩ := longLength_bounds h
  have hpos : size ≠ 0 := by
    rintro rfl
    have h0 : n = 0 := hvalue
    omega
  have hdigits : bigEndian n = rest.take size := by
    rw [hvalue]
    apply bigEndian_ofBigEndian
    rw [head?_take, if_neg hpos]
    exact hzero
  refine ⟨?_, ?_, ?_⟩
  · rw [hdigits, take_append_drop]
  · rw [length_drop]
    omega
  · rw [hdigits, List.length_take]
    omega

lemma payload_eq_drop {k : Nat} (h : length d = some n) (hk : payloadOffset d = k) (hn : k + n = d.length) :
    payload d = some (d.drop k) := by
  unfold payload
  rw [h, bind_some, if_neg (by omega), hk]
  unfold cropped
  rw [if_pos (by omega), take_of_length_le (by rw [length_drop]; omega)]

lemma length_of_actualSize (hb : ¬b.toNat < 0x80) (h : actualSize (b :: rest) = some (b :: rest).length) :
    ∃ n, length (b :: rest) = some n ∧ payloadOffset (b :: rest) + n = rest.length + 1 := by
  rw [actualSize_cons hb] at h
  obtain ⟨n, hn, hsum⟩ := map_eq_some_iff.mp h
  exact ⟨n, hn, hsum⟩

lemma drop_short {k : Nat} (hk : b.toNat ≤ k) : (b :: rest).drop (1 + (b.toNat - k)) = rest := by
  rw [Nat.sub_eq_zero_of_le hk]
  rfl

lemma eq_pushCount {base : Nat} (h : longLength (b.toNat - base) rest = some n) (hbase : base ≤ b.toNat)
    (hn : b.toNat - base + n = rest.length) (hs : s = (b :: rest).drop (1 + (b.toNat - base))) :
    b :: rest = pushCount s.length base ++ s ∧ s.length = n ∧ 56 ≤ n := by
  obtain ⟨hrest, hlen, hsize⟩ := longLength_split h hn
  rw [add_comm, drop_succ_cons] at hs
  refine ⟨?_, hs ▸ hlen, (longLength_bounds h).2.2.1⟩
  unfold pushCount
  rw [hs, hlen, hsize, Nat.add_sub_cancel' hbase, UInt8.ofNat_toNat, cons_append, ← hrest]

lemma eq_appendBytes (hdata : isData d = true) (h : actualSize d = some d.length) (hp : payload d = some s) :
    d = appendBytes s ∧ Fits s := by
  cases d with
  | nil => cases hdata
  | cons b rest =>
    have hb0 : b.toNat < 0xc0 := of_decide_eq_true hdata
    by_cases hb : b.toNat < 0x80
    · rw [actualSize_singleByte hb] at h
      obtain rfl : rest = [] := length_eq_zero_iff.mp (Nat.succ.inj (some.inj h)).symm
      cases (encodes_singleton hb).payload.symm.trans hp
      constructor
      · exact (if_pos ⟨rfl, hb⟩).symm
      · change 1 < _
        omega
    obtain ⟨n, hn, hsum⟩ := length_of_actualSize hb h
    have hfits := length_lt hn
    have hgood := requireGood_of_length hn
    have hoffset := payloadOffset_cons b rest
    rw [if_neg hb, if_pos hb0] at hoffset
    have hs := Option.some.inj (hp.symm.trans (payload_eq_drop hn hoffset (by rw [List.length_cons, ← hsum, hoffset])))
    rw [length_cons hgood, if_neg hb] at hn
    unfold appendBytes
    by_cases h1 : b.toNat ≤ 0xb7
    · rw [if_pos h1] at hn
      have hn' := some.inj hn
      rw [drop_short h1] at hs
      subst hs
      have hlen : s.length = n := by omega
      refine ⟨?_, by unfold Fits; omega⟩
      rw [if_neg, if_pos (by omega), hlen, ← hn', Nat.add_sub_cancel' (not_lt.mp hb), UInt8.ofNat_toNat]
      rintro ⟨hone, hhead⟩
      -- a single byte that could stand alone
      obtain ⟨c, rfl⟩ := length_eq_one_iff.mp hone
      have hc : c.toNat < 0x80 := hhead
      have h81 : b.toNat = 0x81 := by
        omega
      simp [requireGood, h81] at hgood
      omega
    · rw [if_neg h1, if_pos hb0] at hn
      obtain ⟨heq, hlen, hbig⟩ := eq_pushCount hn (by omega) (by omega) hs
      rw [if_neg (by omega), if_neg (by omega)]
      exact ⟨heq, by unfold Fits; omega⟩

lemma eq_appendList (hdata : isData (b :: rest) = false) (h : actualSize (b :: rest) = some (b :: rest).length)
    (hp : payload (b :: rest) = some s) : b :: rest = appendList s ∧ Fits s := by
  have hb0 : ¬b.toNat < 0xc0 := of_decide_eq_false hdata
  have hb : ¬b.toNat < 0x80 := by omega
  obtain ⟨n, hn, hsum⟩ := length_of_actualSize hb h
  have hfits := length_lt hn
  have hoffset := payloadOffset_cons b rest
  rw [if_neg hb, if_neg hb0] at hoffset
  have hs := Option.some.inj (hp.symm.trans (payload_eq_drop hn hoffset (by rw [List.length_cons, ← hsum, hoffset])))
  rw [length_cons (requireGood_of_length hn), if_neg hb, if_neg (by omega), if_neg hb0] at hn
  unfold appendList
  by_cases h1 : b.toNat ≤ 0xf7
  · rw [if_pos h1] at hn
    have hn' := some.inj hn
    rw [drop_short h1] at hs
    subst hs
    have hlen : s.length = n := by omega
    refine ⟨?_, by unfold Fits; omega⟩
    rw [if_pos (by omega), hlen, ← hn', Nat.add_sub_cancel' (not_lt.mp hb0), UInt8.ofNat_toNat]
  · rw [if_neg h1] at hn
    obtain ⟨heq, hlen, hbig⟩ := eq_pushCount hn (by omega) (by omega) hs
    rw [if_neg (by omega)]
    exact ⟨heq, by unfold Fits; omega⟩

end Rlp
