import FiscoBcos.Devcore.RLPItems
import Mathlib.Data.List.GetD

/-!
# Indexing and its cursor

`operator[]` goes on from the item of the last call. A call that meets bytes that are no item leaves the cursor on them,
but under the index of the item before, so that this item cannot be read any more.
-/

namespace FiscoBcos

open List Option UInt64

variable {is : List UInt64}

namespace RLP

variable {d : List UInt8} {p : BytesRef} {c : Cursor}

structure InStep (d : List UInt8) (p : BytesRef) (c : Cursor) : Prop where
  current : nth d c.lastIndex p = some c.lastItem
  following : ∀ j, nth d (c.lastIndex + 1 + j) p =
    if c.lastItem.count = 0 then some c.lastItem else nth d j (p.croppedFrom c.lastEnd)
  lastEnd_le : c.lastEnd ≤ p.count
  size : sizeAsEncoded d c.lastItem = some c.lastItem.count

def placed (r : BytesRef) : BytesRef :=
  if r.count = 0 then .null else r

section

variable {n i : Nat}

lemma nth_add_one {r : BytesRef} (hr : Within d r) (h : sizeAsEncoded d r = some n) (j : Nat) :
    nth d (j + 1) r = if (r.cropped 0 n).count = 0 then some (r.cropped 0 n) else nth d j (r.croppedFrom n) := by
  rw [count_cropped hr (sizeAsEncoded_le hr h)]
  unfold nth
  rw [h, bind_some]
  by_cases hn : n = 0
  · rw [if_pos hn, if_pos hn, hn]
  · rw [if_neg hn, if_neg hn]
    cases j <;> rfl

lemma inStep_rewind (hp : Within d p) (h : sizeAsEncoded d p = some n) : InStep d p ⟨0, n, p.cropped 0 n⟩ := by
  have hle := sizeAsEncoded_le hp h
  constructor
  · exact nth_zero h
  · intro j
    change nth d (0 + 1 + j) p = _
    rw [zero_add, add_comm]
    exact nth_add_one hp h j
  · exact hle
  · change sizeAsEncoded d (p.cropped 0 n) = some (p.cropped 0 n).count
    rw [sizeAsEncoded_cropped hp h, count_cropped hp hle]

lemma InStep.advance (h : InStep d p c) (hp : Within d p) (hc : c.lastItem.count ≠ 0)
    (hsize : sizeAsEncoded d (p.croppedFrom c.lastEnd) = some n) :
    let lastItem := (p.croppedFrom c.lastEnd).cropped 0 n
    InStep d p ⟨c.lastIndex + 1, c.lastEnd + lastItem.count, lastItem⟩ := by
  intro lastItem
  have hrest : Within d (p.croppedFrom c.lastEnd) := within_croppedFrom hp
  have hle := sizeAsEncoded_le hrest hsize
  have hcount : lastItem.count = n := count_cropped hrest hle
  have hend := h.lastEnd_le
  rw [count_croppedFrom hp hend] at hle
  have hbound : c.lastEnd + n ≤ p.count := by omega
  constructor
  · have hnext := h.following 0
    rw [if_neg hc, nth_zero hsize] at hnext
    exact hnext
  · intro j
    have hnext := h.following (j + 1)
    rw [if_neg hc, nth_add_one hrest hsize, croppedFrom_croppedFrom hbound] at hnext
    rw [hcount, show c.lastIndex + 1 + 1 + j = c.lastIndex + 1 + (j + 1) by omega, hnext]
    change (if lastItem.count = 0 then _ else _) = _
    rw [hcount]
  · change c.lastEnd + lastItem.count ≤ p.count
    omega
  · change sizeAsEncoded d lastItem = some lastItem.count
    rw [hcount]
    exact sizeAsEncoded_cropped hrest hsize

inductive Arrives (d : List UInt8) (p : BytesRef) (i : Nat) : Bool × Cursor → Prop
  | found {c : Cursor} (h : InStep d p c) (hi : nth d i p = some c.lastItem) : Arrives d p i (true, c)
  | stuck {c : Cursor} (h : InStep d p c) (hc : c.lastItem.count ≠ 0) (hi : nth d i p = none)
      (hbad : sizeAsEncoded d (p.croppedFrom c.lastEnd) = none) :
      Arrives d p i (false, { c with lastItem := p.croppedFrom c.lastEnd })

lemma arrives_advance (hp : payload d = some p) (h : InStep d p c) (k : Nat) :
    Arrives d p (c.lastIndex + k) (advance d k c) := by
  have hwithin := within_payload hp
  induction k generalizing c with
  | zero => exact .found h h.current
  | succ k ih =>
    unfold advance
    have hi : c.lastIndex + (k + 1) = c.lastIndex + 1 + k := by omega
    have hfollowing := h.following k
    by_cases hc : c.lastItem.count = 0
    · rw [if_pos hc] at hfollowing ⊢
      rw [hi]
      exact .found h hfollowing
    rw [if_neg hc] at hfollowing ⊢
    rw [hp]
    dsimp only
    cases hsize : sizeAsEncoded d (p.croppedFrom c.lastEnd) with
    | none =>
      refine .stuck h hc ?_ hsize
      rw [hi, hfollowing]
      exact nth_of_none hsize
    | some =>
      rw [hi]
      exact ih (h.advance hwithin hc hsize)

lemma node_of_inStep (h : InStep d p c) : node d c.lastItem = some (placed c.lastItem) := by
  unfold node placed
  rw [h.size]
  rfl

lemma subscript_of_rewind (hi : i < c.lastIndex) (hp : payload d = some p)
    (hn : sizeAsEncoded d p = some n) : ∃ out, Arrives d p i out ∧
      subscript d i c = (if out.1 then node d out.2.lastItem else none, out.2) := by
  have harrives := arrives_advance hp (inStep_rewind (within_payload hp) hn) i
  have hzero : 0 + i = i := zero_add i
  refine ⟨_, hzero ▸ harrives, ?_⟩
  unfold subscript rewind
  rw [if_pos hi, hp, bind_some, hn]
  rfl

lemma subscript_of_go_on (hi : ¬i < c.lastIndex) (hp : payload d = some p) (h : InStep d p c) :
    ∃ out, Arrives d p i out ∧ subscript d i c = (if out.1 then node d out.2.lastItem else none, out.2) := by
  have harrives := arrives_advance hp h (i - c.lastIndex)
  have hsum : c.lastIndex + (i - c.lastIndex) = i := by omega
  refine ⟨_, hsum ▸ harrives, ?_⟩
  unfold subscript
  rw [if_neg hi]

lemma Arrives.result {out : Bool × Cursor} (h : Arrives d p i out) :
    (if out.1 then node d out.2.lastItem else none) = (nth d i p).map placed := by
  cases h with
  | found h hi =>
    rw [hi, if_pos rfl, node_of_inStep h]
    rfl
  | stuck _ _ hi =>
    rw [hi]
    rfl

end

lemma subscript_fresh {i : Nat} (hi : i < 2 ^ 64 - 1) (hp : payload d = some p) :
    (subscript d i {}).1 = (nth d i p).map placed := by
  cases hn : sizeAsEncoded d p with
  | none =>
    have hrewind : rewind d = none := by
      unfold rewind
      rw [hp, bind_some, hn]
      rfl
    unfold subscript
    rw [if_pos hi, hrewind, nth_of_none hn]
    rfl
  | some =>
    obtain ⟨out, harrives, hout⟩ := subscript_of_rewind (c := {}) hi hp hn
    rw [hout]
    exact harrives.result

lemma subscript_fresh_max (d : List UInt8) : subscript d (2 ^ 64 - 1) {} = (some .null, {}) := by
  rfl

lemma subscript_of_rewind_eq_none (h : rewind d = none) (i : UInt64) : (subscript d i.toNat {}).2 = {} := by
  by_cases hi : i.toNat < 2 ^ 64 - 1
  · unfold subscript
    rw [if_pos hi, h]
  · have hlt := i.toNat_lt
    have hmax : i.toNat = 2 ^ 64 - 1 := by omega
    rw [hmax, subscript_fresh_max]

lemma subscripts_of_invariant {P : Cursor → Prop} {f : UInt64 → Option BytesRef}
    (hstep : ∀ c, P c → ∀ i : UInt64, (subscript d i.toNat c).1 = f i ∧ P (subscript d i.toNat c).2)
    (hc : P c) : (subscripts d is c).1 = is.map f ∧ P (subscripts d is c).2 := by
  induction is generalizing c with
  | nil => exact ⟨rfl, hc⟩
  | cons i is ih =>
    obtain ⟨hresult, hnext⟩ := hstep c hc i
    obtain ⟨hresults, hlast⟩ := ih hnext
    refine ⟨?_, hlast⟩
    rw [map_cons, ← hresult, ← hresults]
    rfl

lemma subscripts_of_rewind_eq_none (h : rewind d = none) :
    (subscripts d is {}).1 = is.map (fun i => (subscript d i.toNat {}).1) ∧ (subscripts d is {}).2 = {} := by
  refine subscripts_of_invariant (P := fun c => c = {}) ?_ rfl
  rintro c rfl i
  exact ⟨rfl, subscript_of_rewind_eq_none h i⟩

lemma nth_of_wellFormed (hp : payload d = some p) (h : WellFormed d p) (i : Nat) :
    nth d i p = some ((split d p).1.getD i ((split d p).2.cropped 0 0)) := by
  unfold WellFormed at h
  rw [(splits_split (within_payload hp)).nth, if_pos h]
  by_cases hi : i < (split d p).1.length
  · rw [dif_pos hi, getD_eq_getElem _ _ hi]
  · rw [dif_neg hi, getD_eq_default _ _ (not_lt.mp hi)]

def Ready (d : List UInt8) (p : BytesRef) (c : Cursor) : Prop :=
  c = {} ∨ InStep d p c

lemma subscript_of_ready (hp : payload d = some p) (hwf : WellFormed d p) (hc : Ready d p c) (i : UInt64) :
    (subscript d i.toNat c).1 = some (placed ((split d p).1.getD i.toNat .null)) ∧
      Ready d p (subscript d i.toNat c).2 := by
  have hnth := nth_of_wellFormed hp hwf i.toNat
  have hwithin := within_payload hp
  have hplaced : placed ((split d p).1.getD i.toNat ((split d p).2.cropped 0 0)) =
      placed ((split d p).1.getD i.toNat .null) := by
    by_cases hi : i.toNat < (split d p).1.length
    · rw [getD_eq_getElem _ _ hi, getD_eq_getElem _ _ hi]
    · have hrest := (splits_split hwithin).within hwithin
      rw [getD_eq_default _ _ (not_lt.mp hi), getD_eq_default _ _ (not_lt.mp hi)]
      exact if_pos (count_cropped hrest (Nat.zero_le _))
  obtain ⟨n, hn⟩ := exists_size_of_nth (nth_of_wellFormed hp hwf 0)
  have hready {out : Bool × Cursor} (h : Arrives d p i.toNat out)
      (heq : subscript d i.toNat c = (if out.1 then node d out.2.lastItem else none, out.2)) :
      (subscript d i.toNat c).1 = some (placed ((split d p).1.getD i.toNat .null)) ∧
        Ready d p (subscript d i.toNat c).2 := by
    rw [heq]
    refine ⟨h.result.trans ?_, ?_⟩
    · rw [hnth, map_some, hplaced]
    · cases h with
      | found h => exact .inr h
      | stuck _ _ hi => cases hi.symm.trans hnth
  by_cases hi : i.toNat < c.lastIndex
  · obtain ⟨out, harrives, heq⟩ := subscript_of_rewind hi hp hn
    exact hready harrives heq
  cases hc with
  | inl hfresh =>
    -- the largest index; there are fewer items
    have hlt := i.toNat_lt
    have hcount := count_payload_lt hp
    have hlength := (splits_split hwithin).length_le hwithin
    rw [hfresh] at hi ⊢
    have hmax : i.toNat = 2 ^ 64 - 1 := by
      change ¬i.toNat < 2 ^ 64 - 1 at hi
      omega
    rw [getD_eq_default _ _ (by omega), hmax, subscript_fresh_max]
    exact ⟨rfl, .inl rfl⟩
  | inr hstep =>
    obtain ⟨out, harrives, heq⟩ := subscript_of_go_on hi hp hstep
    exact hready harrives heq

lemma subscripts_of_wellFormed (hp : payload d = some p) (hwf : WellFormed d p) :
    (subscripts d is {}).1 = is.map fun i => some (placed ((split d p).1.getD i.toNat .null)) :=
  (subscripts_of_invariant (fun _ hc i => subscript_of_ready hp hwf hc i) (.inl rfl)).1

lemma subscripts_of_malformed (hp : payload d = some p) (hwf : ¬WellFormed d p) (hitems : (split d p).1 ≠ []) :
    ∃ i j : UInt64, (subscripts d [i, j] {}).1 = [none, none] ∧ (subscript d j.toNat {}).1 ≠ none := by
  have hwithin := within_payload hp
  have hsplits := splits_split hwithin
  have hcount := count_payload_lt hp
  have hlength := hsplits.length_le hwithin
  obtain ⟨k, hk⟩ := Nat.exists_eq_succ_of_ne_zero fun h0 => hitems (length_eq_zero_iff.mp h0)
  have hnth (i : Nat) : nth d i p = if h : i < (split d p).1.length then some (split d p).1[i] else none := by
    have hi := hsplits.nth i
    unfold WellFormed at hwf
    rw [if_neg hwf] at hi
    exact hi
  have hgood {i : Nat} (hi : nth d i p ≠ none) : i ≤ k := by
    by_contra hlt
    rw [hnth, dif_neg (by omega)] at hi
    exact hi rfl
  have hto (i : Nat) (hi : i ≤ k + 1) : (ofNat i).toNat = i :=
    toNat_ofNat_of_lt' (by unfold size; omega)
  have hzero := hnth 0
  rw [dif_pos (by omega)] at hzero
  obtain ⟨n, hn⟩ := exists_size_of_nth hzero
  refine ⟨ofNat (k + 1), ofNat k, ?_, ?_⟩
  · have hi : k + 1 < (Cursor.lastIndex {}) := by
      change k + 1 < 2 ^ 64 - 1
      omega
    obtain ⟨out, harrives, hout⟩ := subscript_of_rewind hi hp hn
    have hnone : nth d (k + 1) p = none := by
      rw [hnth, dif_neg (by omega)]
    cases harrives with
    | found _ hfound => cases hnone.symm.trans hfound
    | @stuck c hstep hitem _ hbad =>
      -- the item before is the last one
      have hcurrent : c.lastIndex ≤ k := hgood (by rw [hstep.current]; exact some_ne_none _)
      have hnext : nth d (c.lastIndex + 1) p = none := by
        have h0 := hstep.following 0
        rw [if_neg hitem, nth_of_none hbad] at h0
        exact h0
      have hlast : k ≤ c.lastIndex := by
        by_contra hlt
        rw [hnth, dif_pos (by omega)] at hnext
        cases hnext
      have hagain : subscript d k { c with lastItem := p.croppedFrom c.lastEnd } =
          (none, { c with lastItem := p.croppedFrom c.lastEnd }) := by
        unfold subscript
        rw [if_neg (not_lt.mpr hcurrent)]
        dsimp only
        rw [show k - c.lastIndex = 0 by omega]
        unfold advance node
        rw [hbad]
        rfl
      unfold subscripts subscripts
      rw [hto _ (le_rfl), hout, hto k (by omega)]
      dsimp only
      rw [hagain]
      rfl
  · rw [hto k (by omega), subscript_fresh (by omega) hp, hnth, dif_pos (by omega)]
    exact some_ne_none _

/-- Every sequence of calls finds what new nodes find exactly if the payload is well formed, or cannot be read, or does
not even start with an item. -/
theorem subscripts_memoryless_iff (d : List UInt8) :
    (∀ is : List UInt64, (subscripts d is {}).1 = is.map fun i => (subscript d i.toNat {}).1) ↔
      ∀ p, payload d = some p → WellFormed d p ∨ (split d p).1 = [] := by
  constructor
  · intro h p hp
    by_contra hbad
    obtain ⟨hwf, hitems⟩ := not_or.mp hbad
    obtain ⟨i, j, hcalls, hfresh⟩ := subscripts_of_malformed hp hwf hitems
    rw [h] at hcalls
    have hj := (cons.inj (cons.inj hcalls).2).1
    exact hfresh hj
  · intro h is
    cases hrewind : rewind d with
    | none => exact (subscripts_of_rewind_eq_none hrewind).1
    | some =>
      obtain ⟨p, hp, hmap⟩ := bind_eq_some_iff.mp hrewind
      obtain ⟨n, hn, -⟩ := map_eq_some_iff.mp hmap
      have hwf : WellFormed d p := by
        refine (h p hp).elim id fun hempty => ?_
        have hzero := (splits_split (within_payload hp)).nth 0
        by_contra hrest
        unfold WellFormed at hrest
        rw [dif_neg (by rw [hempty]; exact Nat.not_lt_zero 0), if_neg hrest] at hzero
        rw [nth_zero hn] at hzero
        cases hzero
      rw [subscripts_of_wellFormed hp hwf]
      apply map_congr_left
      intro i _
      exact (subscript_of_ready hp hwf (.inl rfl) i).1.symm

/-- The list of the byte 1 and of bytes that are no item. Index 1 throws, and then index 0 throws as well, where a new
node has the item. -/
theorem not_subscripts_memoryless :
    let d : List UInt8 := [0xc3, 0x01, 0x81, 0x00]
    isList d = true ∧ Rlp.parse d = some d ∧ (subscripts d [1, 0] {}).1 = [none, none] ∧
      (subscript d 0 {}).1 = some ⟨some 1, 1⟩ := by
  decide +kernel

end RLP

end FiscoBcos
