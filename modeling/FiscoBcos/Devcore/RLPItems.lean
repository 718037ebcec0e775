import FiscoBcos.Devcore.RLP

/-!
# The items of a payload

A payload is a sequence of items, up to its end or up to bytes that are no item.
-/

namespace FiscoBcos

open List Option

namespace RLP

open BytesRef

variable (d : List UInt8)

structure Within (r : BytesRef) : Prop where
  bound : r.data.getD 0 + r.count ≤ d.length
  null : r.data = none → r.count = 0

/-- The items of a payload, and what is left: nothing, or bytes that do not start with an item. -/
inductive Splits : BytesRef → List BytesRef → BytesRef → Prop
  | stop {r : BytesRef} (h : r.count = 0 ∨ sizeAsEncoded d r = none) : Splits r [] r
  | item {r rest : BytesRef} {n : Nat} {es : List BytesRef} (hn : n ≠ 0) (h : sizeAsEncoded d r = some n)
      (hs : Splits (r.croppedFrom n) es rest) : Splits r (r.cropped 0 n :: es) rest

def scan : Nat → BytesRef → List BytesRef × BytesRef
  | 0, r => ([], r)
  | k + 1, r =>
    match sizeAsEncoded d r with
    | some (n + 1) =>
      let s := scan k (r.croppedFrom (n + 1))
      (r.cropped 0 (n + 1) :: s.1, s.2)
    | _ => ([], r)

def split (r : BytesRef) : List BytesRef × BytesRef :=
  scan d r.count r

def WellFormed (r : BytesRef) : Prop :=
  (split d r).2.count = 0

instance (r : BytesRef) : Decidable (WellFormed d r) :=
  inferInstanceAs (Decidable ((split d r).2.count = 0))

def nth : Nat → BytesRef → Option BytesRef
  | 0, r => (sizeAsEncoded d r).map fun n => r.cropped 0 n
  | i + 1, r =>
    (sizeAsEncoded d r).bind fun n => if n = 0 then some (r.cropped 0 0) else nth i (r.croppedFrom n)

variable {d} {r : BytesRef} {n m : Nat}

lemma within_null : Within d .null :=
  ⟨Nat.zero_le _, fun _ => rfl⟩

lemma croppedFrom_eq {p : Nat} (hdata : r.data = some p) (hn : n ≤ r.count) :
    r.croppedFrom n = ⟨some (p + n), r.count - n⟩ := by
  unfold croppedFrom
  rw [hdata]
  exact if_pos hn

lemma croppedFrom_eq_cropped : r.croppedFrom n = r.cropped n (r.count - n) := by
  unfold croppedFrom cropped
  split
  · rfl
  · exact if_congr (by omega) rfl rfl

lemma croppedFrom_croppedFrom (hmn : m + n ≤ r.count) : (r.croppedFrom m).croppedFrom n = r.croppedFrom (m + n) := by
  cases hdata : r.data with
  | none =>
    have hnull (k : Nat) : r.croppedFrom k = .null := by
      unfold croppedFrom
      rw [hdata]
    rw [hnull, hnull]
    rfl
  | some =>
    have hn : n ≤ r.count - m := by omega
    rw [croppedFrom_eq hdata (by omega), croppedFrom_eq hdata hmn, croppedFrom_eq rfl hn]
    rw [add_assoc, Nat.sub_sub]

lemma sizeAsEncoded_of_empty (h : r.count = 0) : sizeAsEncoded d r = some 0 := by
  unfold sizeAsEncoded bytes
  rw [h]
  rfl

section

variable (h : Within d r)

include h

lemma length_bytes : (r.bytes d).length = r.count := by
  have hbound := h.bound
  unfold bytes
  rw [length_take, length_drop]
  omega

lemma count_cropped (hn : n ≤ r.count) : (r.cropped 0 n).count = n := by
  unfold cropped
  cases hdata : r.data with
  | none =>
    have hnull := h.null hdata
    change 0 = n
    omega
  | some =>
    dsimp only
    rw [if_pos (by omega)]

lemma within_cropped {start : Nat} : Within d (r.cropped start n) := by
  have hbound := h.bound
  unfold cropped
  cases hdata : r.data with
  | none => exact within_null
  | some p =>
    dsimp only
    split
    · rename_i hin
      rw [hdata, getD_some] at hbound
      refine ⟨?_, nofun⟩
      change p + start + n ≤ d.length
      omega
    · exact within_null

lemma count_croppedFrom (hn : n ≤ r.count) : (r.croppedFrom n).count = r.count - n := by
  cases hdata : r.data with
  | none =>
    have hnull := h.null hdata
    unfold croppedFrom
    rw [hdata]
    change 0 = r.count - n
    omega
  | some => rw [croppedFrom_eq hdata hn]

lemma within_croppedFrom : Within d (r.croppedFrom n) := by
  rw [croppedFrom_eq_cropped]
  exact within_cropped h

lemma bytes_cropped (hn : n ≤ r.count) : (r.cropped 0 n).bytes d = (r.bytes d).take n := by
  unfold cropped bytes
  cases hdata : r.data with
  | none =>
    rw [h.null hdata, take_zero, take_nil]
    rfl
  | some =>
    dsimp only
    rw [if_pos (by omega), take_take, min_eq_left hn]
    rfl

lemma length_bytes_cropped (hn : n ≤ r.count) : ((r.cropped 0 n).bytes d).length = n := by
  rw [length_bytes (within_cropped h), count_cropped h hn]

variable (hsize : sizeAsEncoded d r = some n)

include hsize

lemma sizeAsEncoded_le : n ≤ r.count := by
  have hle := (Rlp.sizeAsEncoded_eq_some.mp hsize).2
  rwa [length_bytes h] at hle

lemma sizeAsEncoded_pos (hr : r.count ≠ 0) : n ≠ 0 := by
  have hactual := (Rlp.sizeAsEncoded_eq_some.mp hsize).1
  have hlen := length_bytes h
  cases hbytes : r.bytes d with
  | nil =>
    rw [hbytes] at hlen
    exact absurd hlen.symm hr
  | cons =>
    rw [hbytes] at hactual
    exact ne_of_gt (Rlp.actualSize_pos hactual)

lemma actualSize_cropped : Rlp.actualSize ((r.cropped 0 n).bytes d) = some n := by
  obtain ⟨hactual, hle⟩ := Rlp.sizeAsEncoded_eq_some.mp hsize
  rw [bytes_cropped h (sizeAsEncoded_le h hsize)]
  exact Rlp.actualSize_take hactual hle

lemma sizeAsEncoded_cropped : sizeAsEncoded d (r.cropped 0 n) = some n := by
  refine Rlp.sizeAsEncoded_eq_some.mpr ⟨actualSize_cropped h hsize, ?_⟩
  rw [length_bytes_cropped h (sizeAsEncoded_le h hsize)]

end

section

variable {p : BytesRef}

lemma within_data (d : List UInt8) : Within d (data d) := by
  refine ⟨?_, nofun⟩
  change 0 + d.length ≤ d.length
  omega

lemma payload_eq_some (h : payload d = some p) :
    ∃ l, Rlp.length d = some l ∧ l ≤ d.length ∧ p = (data d).cropped (Rlp.payloadOffset d) l := by
  obtain ⟨l, hl, hif⟩ := bind_eq_some_iff.mp h
  by_cases hlt : d.length < l
  · rw [if_pos hlt] at hif
    cases hif
  · rw [if_neg hlt] at hif
    exact ⟨l, hl, not_lt.mp hlt, (some.inj hif).symm⟩

lemma within_payload (h : payload d = some p) : Within d p := by
  obtain ⟨l, -, -, rfl⟩ := payload_eq_some h
  exact within_cropped (within_data d)

lemma count_payload_lt (h : payload d = some p) : p.count < 2 ^ 64 - 1 - 0x100 := by
  obtain ⟨l, hl, -, rfl⟩ := payload_eq_some h
  have hlt := Rlp.length_lt hl
  unfold cropped data
  dsimp only
  split
  · exact hlt
  · change 0 < _
    omega

end

section

variable {es : List BytesRef} {rest : BytesRef}

lemma splits_scan {k : Nat} (h : Within d r) (hk : r.count ≤ k) : Splits d r (scan d k r).1 (scan d k r).2 := by
  induction k generalizing r with
  | zero => exact .stop (.inl (Nat.le_zero.mp hk))
  | succ k ih =>
    unfold scan
    by_cases hcount : r.count = 0
    · rw [sizeAsEncoded_of_empty hcount]
      exact .stop (.inl hcount)
    cases hsize : sizeAsEncoded d r with
    | none => exact .stop (.inr hsize)
    | some n =>
      have hpos := sizeAsEncoded_pos h hsize hcount
      have hle := sizeAsEncoded_le h hsize
      cases n with
      | zero => exact absurd rfl hpos
      | succ =>
        refine .item hpos hsize (ih (within_croppedFrom h) ?_)
        rw [count_croppedFrom h hle]
        omega

lemma splits_split (h : Within d r) : Splits d r (split d r).1 (split d r).2 :=
  splits_scan h (le_rfl)

lemma Splits.within (hs : Splits d r es rest) (h : Within d r) : Within d rest := by
  induction hs with
  | stop => exact h
  | item _ _ _ ih => exact ih (within_croppedFrom h)

lemma Splits.length_le (hs : Splits d r es rest) (h : Within d r) : es.length + rest.count ≤ r.count := by
  induction hs with
  | stop =>
    rw [length_nil]
    omega
  | item hn hsize _ ih =>
    have hle := sizeAsEncoded_le h hsize
    have hrest := ih (within_croppedFrom h)
    rw [count_croppedFrom h hle] at hrest
    rw [length_cons]
    omega

lemma nth_zero (h : sizeAsEncoded d r = some n) : nth d 0 r = some (r.cropped 0 n) := by
  unfold nth
  rw [h]
  rfl

lemma nth_of_none (h : sizeAsEncoded d r = none) {i : Nat} : nth d i r = none := by
  cases i with
  | zero | succ i =>
    unfold nth
    rw [h]
    rfl

lemma exists_size_of_nth {e : BytesRef} (h : nth d 0 r = some e) : ∃ n, sizeAsEncoded d r = some n := by
  apply ne_none_iff_exists'.mp
  intro hnone
  rw [nth_of_none hnone] at h
  cases h

lemma Splits.nth (hs : Splits d r es rest) (i : Nat) : nth d i r =
      if h : i < es.length then some es[i] else if rest.count = 0 then some (rest.cropped 0 0) else none := by
  induction hs generalizing i with
  | @stop r h =>
    by_cases hcount : r.count = 0
    · rw [if_pos hcount]
      cases i with
      | zero => exact nth_zero (sizeAsEncoded_of_empty hcount)
      | succ =>
        unfold RLP.nth
        rw [sizeAsEncoded_of_empty hcount]
        rfl
    · rw [if_neg hcount]
      exact nth_of_none (h.resolve_left hcount)
  | item hn hsize _ ih =>
    cases i with
    | zero => exact nth_zero hsize
    | succ =>
      unfold RLP.nth
      rw [hsize, bind_some, if_neg hn, ih]
      simp

end

end RLP

end FiscoBcos
