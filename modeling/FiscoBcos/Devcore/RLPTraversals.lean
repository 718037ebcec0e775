import FiscoBcos.Devcore.RLPCursor

/-!
# Three ways to read a list

Counting, walking and indexing read the same items, or all fail, unless the bytes of the node do not end where its payload
ends: then the walk passes by its end and goes on forever.
-/

namespace FiscoBcos

open List Option Rlp Loop

namespace RLP

variable {d : List UInt8} {p r rest : BytesRef} {n : Nat} {es : List BytesRef}

def Inside (e p : BytesRef) : Prop :=
  ∃ s q, e.data = some s ∧ p.data = some q ∧ q ≤ s ∧ s + e.count ≤ q + p.count

def Precedes (a b : BytesRef) : Prop :=
  a.data.getD 0 + a.count ≤ b.data.getD 0

structure AllFail (d : List UInt8) : Prop where
  items : Items d none
  iteration : Iteration d none
  indexing : ∃ i : UInt64, (subscript d i.toNat {}).1 = none

structure AllFind (d : List UInt8) (p : BytesRef) (es : List BytesRef) : Prop where
  payload : payload d = some p
  items : Items d (some es.length)
  iteration : Iteration d (some es)
  indexing : ∀ is : List UInt64, (subscripts d is {}).1 = is.map fun i => some (es.getD i.toNat .null)
  inside : ∀ e ∈ es, Inside e p
  disjoint : es.Pairwise Precedes

def Agree (d : List UInt8) : Prop :=
  AllFail d ∨ ∃ p es, AllFind d p es

/-- No sum or difference of sizes leaves the range of `size_t`: a size read byte by byte, a size with the bytes in
front, what is left behind an item, and the end of the last item that was looked up. -/
structure NoWrap (d : List UInt8) : Prop where
  bytes : ∀ (r : BytesRef) (k : Nat), k ≤ 8 → ofBigEndian ((r.bytes d).tail.take k) < 2 ^ 64
  sizes : ∀ (r : BytesRef) (l : Nat), Rlp.length (r.bytes d) = some l → Rlp.payloadOffset (r.bytes d) + l < 2 ^ 64
  differences : ∀ (r : BytesRef) (n : Nat), Within d r → sizeAsEncoded d r = some n → (r.cropped 0 n).count ≤ r.count
  ends : ∀ is : List UInt64, (subscripts d is {}).2.lastEnd < 2 ^ 64

section

variable {c : Cursor} (hp : payload d = some p) (hc : c.lastEnd ≤ p.count)

include hp hc

lemma lastEnd_advance (k : Nat) : (advance d k c).2.lastEnd ≤ p.count := by
  induction k generalizing c with
  | zero => exact hc
  | succ k ih =>
    unfold advance
    split
    · exact hc
    rw [hp]
    dsimp only
    cases hsize : sizeAsEncoded d (p.croppedFrom c.lastEnd) with
    | none => exact hc
    | some n =>
      have hwithin := within_payload hp
      have hrest : Within d (p.croppedFrom c.lastEnd) := within_croppedFrom hwithin
      have hle := sizeAsEncoded_le hrest hsize
      apply ih
      change c.lastEnd + ((p.croppedFrom c.lastEnd).cropped 0 n).count ≤ p.count
      rw [count_cropped hrest hle]
      rw [count_croppedFrom hwithin hc] at hle
      omega

lemma lastEnd_subscript {i : Nat} : (subscript d i c).2.lastEnd ≤ p.count := by
  unfold subscript
  split
  · exact hc
  rename_i c' hif
  apply lastEnd_advance hp
  split at hif
  · unfold rewind at hif
    rw [hp, bind_some] at hif
    obtain ⟨n, hn, rfl⟩ := map_eq_some_iff.mp hif
    exact sizeAsEncoded_le (within_payload hp) hn
  · cases hif
    exact hc

lemma lastEnd_subscripts (is : List UInt64) : (subscripts d is c).2.lastEnd ≤ p.count := by
  induction is generalizing c with
  | nil => exact hc
  | cons i is ih => exact ih (lastEnd_subscript hp hc)

end

lemma noWrap (d : List UInt8) : NoWrap d := by
  constructor
  · intro r k hk
    have hlt := ofBigEndian_lt ((r.bytes d).tail.take k)
    have hlen : ((r.bytes d).tail.take k).length ≤ 8 := (length_take_le _ _).trans hk
    have hpow : 256 ^ ((r.bytes d).tail.take k).length ≤ 256 ^ 8 := Nat.pow_le_pow_right (by decide) hlen
    omega
  · intro r l hl
    have hlt := Rlp.length_lt hl
    have hoffset := payloadOffset_le (r.bytes d)
    omega
  · intro r n hr hn
    have hle := sizeAsEncoded_le hr hn
    rwa [count_cropped hr hle]
  · intro is
    cases hp : payload d with
    | none =>
      have hrewind : rewind d = none := by
        unfold rewind
        rw [hp]
        rfl
      rw [(subscripts_of_rewind_eq_none hrewind).2]
      decide
    | some =>
      have hcount := count_payload_lt hp
      have hend := lastEnd_subscripts (c := {}) hp (Nat.zero_le _) is
      omega

lemma items_of_splits (hs : Splits d r es rest) (k : Nat) :
    Ends (itemsRound d) (r, k) (if rest.count = 0 then some (k + es.length) else none) := by
  induction hs generalizing k with
  | @stop r h =>
    apply ends_of_leave
    unfold itemsRound
    by_cases hcount : r.count = 0
    · rw [if_pos hcount, if_pos hcount]
      rfl
    · rw [if_neg hcount, if_neg hcount, h.resolve_left hcount]
  | @item r rest n es hn h _ ih =>
    have hcount : r.count ≠ 0 := by
      intro h0
      rw [sizeAsEncoded_of_empty h0] at h
      exact hn (some.inj h).symm
    have hround : itemsRound d (r, k) = .inl (r.croppedFrom n, k + 1) := by
      unfold itemsRound
      rw [if_neg hcount, h]
    have hends := ih (k + 1)
    rw [Nat.add_right_comm, add_assoc] at hends
    exact ends_of_go_on hround hends

section

variable {q : Nat} {acc : List BytesRef}

def onFirst (r : BytesRef) (n : Nat) : Iterator :=
  ⟨r.count - n, r.cropped 0 n⟩

lemma cropped_zero_eq (hq : r.data = some q) (hn : n ≤ r.count) : r.cropped 0 n = ⟨some q, n⟩ := by
  unfold BytesRef.cropped
  rw [hq]
  exact if_pos ⟨Nat.zero_le _, hn, by omega⟩

lemma item_onFirst (h : Within d r) (hn : sizeAsEncoded d r = some n) :
    (onFirst r n).item d = some (r.cropped 0 n) := by
  have hactual := actualSize_cropped h hn
  have hlength := length_bytes_cropped h (sizeAsEncoded_le h hn)
  have hparse : parse ((r.cropped 0 n).bytes d) = some ((r.cropped 0 n).bytes d) :=
    parse_eq_some.mpr ⟨by rw [hlength]; exact hactual, rfl⟩
  unfold Iterator.item onFirst
  rw [hparse]
  rfl

lemma next_onFirst (h : Within d r) (hq : r.data = some q) (hn : sizeAsEncoded d r = some n) :
    (onFirst r n).next d = (sizeAsEncoded d (r.croppedFrom n)).map (onFirst (r.croppedFrom n)) := by
  have hle := sizeAsEncoded_le h hn
  have hitem := cropped_zero_eq hq hle
  have hrest := croppedFrom_eq hq hle
  have hwithin : Within d (r.croppedFrom n) := within_croppedFrom h
  unfold Iterator.next
  by_cases hremaining : (onFirst r n).remaining = 0
  · have hempty : (r.croppedFrom n).count = 0 := by
      rw [hrest]
      exact hremaining
    rw [if_neg (not_not.mpr hremaining), sizeAsEncoded_of_empty hempty, map_some]
    unfold onFirst
    rw [hitem, cropped_zero_eq (by rw [hrest]) (Nat.zero_le _), hempty]
    rfl
  · rw [if_pos hremaining]
    have hnext : (⟨(onFirst r n).currentItem.next.data, (onFirst r n).remaining⟩ : BytesRef) = r.croppedFrom n := by
      unfold onFirst
      rw [hitem, hrest]
      rfl
    dsimp only
    rw [hnext]
    cases hm : sizeAsEncoded d (r.croppedFrom n) with
    | none => rfl
    | some m =>
      have hmle := sizeAsEncoded_le hwithin hm
      have hcount := count_cropped hwithin hmle
      rw [map_some, map_some]
      rw [hcount]
      rw [hrest] at hmle ⊢
      change some (Iterator.mk (r.count - n - min (r.count - n) m) _) = some (Iterator.mk (r.count - n - m) _)
      rw [min_eq_right hmle]

lemma endIterator_item (d : List UInt8) : (endIterator d).currentItem = ⟨some d.length, 0⟩ := by
  change (data d).croppedFrom (data d).count = _
  rw [croppedFrom_eq rfl (le_rfl), Nat.sub_self, zero_add]
  rfl

lemma not_ends_of_stay {place : Option Nat} (hplace : place ≠ some d.length) (result : Option (List BytesRef)) :
    ¬Ends (iterationRound d) (⟨0, ⟨place, 0⟩⟩, acc) result := by
  refine not_ends_of_invariant (P := fun s => s.1 = ⟨0, ⟨place, 0⟩⟩) ?_ rfl
  rintro ⟨it, items⟩ hit
  obtain rfl : it = ⟨0, ⟨place, 0⟩⟩ := hit
  refine ⟨(⟨0, ⟨place, 0⟩⟩, items ++ [⟨place, 0⟩]), ?_, rfl⟩
  unfold iterationRound
  rw [endIterator_item, if_neg fun heq => hplace (congrArg BytesRef.data heq)]
  cases place <;> rfl

/-- A walk over well-formed bytes that end where the bytes of the node end gives the items, any other one does not end;
bytes that are no item are an exception. -/
theorem iteration_of_splits (hs : Splits d r es rest) (h : Within d r) (hq : r.data = some q)
    (hn : sizeAsEncoded d r = some n) (acc : List BytesRef) :
    (rest.count ≠ 0 → Ends (iterationRound d) (onFirst r n, acc) none) ∧ (rest.count = 0 → q + r.count = d.length →
        Ends (iterationRound d) (onFirst r n, acc) (some (acc ++ es))) ∧ (rest.count = 0 → q + r.count ≠ d.length →
        ∀ result, ¬Ends (iterationRound d) (onFirst r n, acc) result) := by
  induction hs generalizing q n acc with
  | @stop r hstop =>
    have hcount : r.count = 0 := hstop.resolve_right fun hnone => by cases hnone.symm.trans hn
    rw [sizeAsEncoded_of_empty hcount] at hn
    cases hn
    have hfirst : onFirst r 0 = ⟨0, ⟨some q, 0⟩⟩ := by
      unfold onFirst
      rw [hcount, cropped_zero_eq hq (Nat.zero_le _)]
    rw [hfirst, hcount, add_zero]
    refine ⟨fun hne => absurd rfl hne, fun _ hend => ?_, fun _ hend result => ?_⟩
    · apply ends_of_leave
      unfold iterationRound
      rw [endIterator_item, hend, if_pos rfl, append_nil]
    · exact not_ends_of_stay (fun heq => hend (some.inj heq)) result
  | @item r rest n' es hpos hsize hs ih =>
    obtain rfl : n' = n := some.inj (hsize.symm.trans hn)
    have hle := sizeAsEncoded_le h hn
    have hrest := croppedFrom_eq hq hle
    have hsum : q + n' + (r.croppedFrom n').count = q + r.count := by
      rw [hrest]
      change q + n' + (r.count - n') = q + r.count
      omega
    have hnotEnd : ¬(onFirst r n').currentItem = (endIterator d).currentItem := by
      unfold onFirst
      rw [endIterator_item, cropped_zero_eq hq hle]
      intro heq
      exact hpos (congrArg BytesRef.count heq)
    cases hm : sizeAsEncoded d (r.croppedFrom n') with
    | none =>
      have hround : iterationRound d (onFirst r n', acc) = .inr none := by
        unfold iterationRound
        rw [if_neg hnotEnd, item_onFirst h hn, next_onFirst h hq hn, hm]
        rfl
      have hbad : rest.count ≠ 0 := by
        cases hs with
        | stop =>
          intro h0
          rw [sizeAsEncoded_of_empty h0] at hm
          cases hm
        | item _ hsome => cases hm.symm.trans hsome
      exact ⟨fun _ => ends_of_leave hround, fun h0 => absurd h0 hbad, fun h0 => absurd h0 hbad⟩
    | some m =>
      have hround : iterationRound d (onFirst r n', acc) =
          .inl (onFirst (r.croppedFrom n') m, acc ++ [r.cropped 0 n']) := by
        unfold iterationRound
        rw [if_neg hnotEnd, item_onFirst h hn, next_onFirst h hq hn, hm]
        rfl
      obtain ⟨hfail, hfind, hforever⟩ := ih (within_croppedFrom h) (by rw [hrest]) hm (acc ++ [r.cropped 0 n'])
      rw [hsum] at hfind hforever
      rw [append_assoc] at hfind
      exact ⟨fun h0 => ends_of_go_on hround (hfail h0), fun h0 hend => ends_of_go_on hround (hfind h0 hend),
        fun h0 hend => not_ends_of_go_on hround (hforever h0 hend)⟩

end

section

variable {q : Nat} (hs : Splits d r es rest) (h : Within d r) (hq : r.data = some q)

include hs h hq

lemma inside_of_splits : ∀ e ∈ es, e.count ≠ 0 ∧ Inside e r := by
  induction hs generalizing q with
  | stop => exact nofun
  | @item r rest n es hn hsize _ ih =>
    have hle := sizeAsEncoded_le h hsize
    have hrest := croppedFrom_eq hq hle
    have hitem := cropped_zero_eq hq hle
    have hinside := ih (within_croppedFrom h) (by rw [hrest])
    intro e he
    cases mem_cons.mp he with
    | inl heq =>
      rw [heq, hitem]
      exact ⟨hn, q, q, rfl, hq, le_rfl, Nat.add_le_add_left hle q⟩
    | inr hmem =>
      obtain ⟨hcount, s, q', hs', hq', hstart, hend⟩ := hinside e hmem
      rw [hrest] at hq' hend
      cases hq'
      change s + e.count ≤ q + n + (r.count - n) at hend
      exact ⟨hcount, s, q, hs', hq, by omega, by omega⟩

lemma disjoint_of_splits : es.Pairwise Precedes := by
  induction hs generalizing q with
  | stop => exact .nil
  | @item r rest n es hn hsize hs ih =>
    have hle := sizeAsEncoded_le h hsize
    have hrest := croppedFrom_eq hq hle
    have hwithin : Within d (r.croppedFrom n) := within_croppedFrom h
    have hdata : (r.croppedFrom n).data = some (q + n) := by rw [hrest]
    refine .cons (fun e he => ?_) (ih hwithin hdata)
    obtain ⟨-, s, q', hs', hq', hstart, -⟩ := inside_of_splits hs hwithin hdata e he
    cases hdata.symm.trans hq'
    unfold Precedes
    rw [cropped_zero_eq hq hle, hs']
    exact hstart

end

section

variable (hlist : isList d = true)

include hlist

lemma allFail_of_payload (hp : payload d = none) : AllFail d := by
  constructor
  · unfold Items
    rw [if_pos hlist, hp]
    rfl
  · unfold Iteration beginIterator
    rw [if_pos hlist, hp]
    rfl
  · refine ⟨0, ?_⟩
    unfold subscript rewind
    rw [hp]
    rfl

variable (hp : payload d = some p)

include hp

lemma payload_cases : (p = .null ∧ actualSize d ≠ some d.length) ∨
      ∃ q, p.data = some q ∧ (q + p.count = d.length ↔ actualSize d = some d.length) := by
  obtain ⟨l, hl, -, rfl⟩ := payload_eq_some hp
  have hactual : actualSize d = some (payloadOffset d + l) := by
    cases d with
    | nil => cases hlist
    | cons b =>
      have hb : 0xc0 ≤ b.toNat := of_decide_eq_true hlist
      rw [actualSize_cons (by omega), hl]
      rfl
  unfold BytesRef.cropped data
  dsimp only
  split
  · refine .inr ⟨0 + payloadOffset d, rfl, ?_⟩
    rw [hactual, zero_add]
    exact ⟨congrArg some, some.inj⟩
  rename_i hout
  refine .inl ⟨rfl, fun heq => hout ?_⟩
  have hsum := some.inj (hactual.symm.trans heq)
  omega

lemma beginIterator_eq : beginIterator d = (sizeAsEncoded d p).map (onFirst p) := by
  unfold beginIterator
  rw [if_pos hlist, hp, bind_some]
  cases hn : sizeAsEncoded d p with
  | none => rfl
  | some =>
    rw [map_some, map_some]
    unfold onFirst
    dsimp only
    rw [count_cropped (within_payload hp) (sizeAsEncoded_le (within_payload hp) hn)]

lemma items_eq : Items d (if (split d p).2.count = 0 then some (split d p).1.length else none) := by
  have hends := items_of_splits (splits_split (within_payload hp)) 0
  rw [zero_add] at hends
  unfold Items
  rw [if_pos hlist, hp]
  exact hends

lemma allFail_of_malformed (hwf : ¬WellFormed d p) : AllFail d := by
  have hwithin := within_payload hp
  have hsplits := splits_split hwithin
  have hlength := hsplits.length_le hwithin
  have hcount := count_payload_lt hp
  have hitems := items_eq hlist hp
  unfold WellFormed at hwf
  rw [if_neg hwf] at hitems
  refine ⟨hitems, ?_, UInt64.ofNat (split d p).1.length, ?_⟩
  · unfold Iteration
    rw [beginIterator_eq hlist hp]
    cases hn : sizeAsEncoded d p with
    | none => rfl
    | some =>
      cases payload_cases hlist hp with
      | inl hnull =>
        rw [hnull.1] at hwf
        exact absurd rfl hwf
      | inr hplace =>
        obtain ⟨q, hq, -⟩ := hplace
        exact (iteration_of_splits hsplits hwithin hq hn []).1 hwf
  · rw [UInt64.toNat_ofNat_of_lt' (by unfold UInt64.size; omega), subscript_fresh (by omega) hp, hsplits.nth,
      dif_neg (lt_irrefl _), if_neg hwf]
    rfl

lemma allFind_of_exact (hwf : WellFormed d p) (hexact : actualSize d = some d.length) : AllFind d p (split d p).1 := by
  have hwithin := within_payload hp
  have hsplits := splits_split hwithin
  have hitems := items_eq hlist hp
  have hfirst := nth_of_wellFormed hp hwf 0
  obtain ⟨n, hn, -⟩ := map_eq_some_iff.mp hfirst
  have hplace := (payload_cases hlist hp).resolve_left fun hnull => hnull.2 hexact
  obtain ⟨q, hq, hend⟩ := hplace
  have hinside := inside_of_splits hsplits hwithin hq
  refine ⟨hp, ?_, ?_, fun is => ?_, fun e he => (hinside e he).2, disjoint_of_splits hsplits hwithin hq⟩
  · unfold WellFormed at hwf
    rwa [if_pos hwf] at hitems
  · unfold Iteration
    rw [beginIterator_eq hlist hp, hn]
    exact (iteration_of_splits hsplits hwithin hq hn []).2.1 hwf (hend.mpr hexact)
  · rw [subscripts_of_wellFormed hp hwf]
    apply map_congr_left
    intro i _
    by_cases hi : i.toNat < (split d p).1.length
    · rw [getD_eq_getElem _ _ hi]
      exact congrArg some (if_neg (hinside _ (getElem_mem hi)).1)
    · rw [getD_eq_default _ _ (not_lt.mp hi)]
      rfl

lemma not_iteration_of_inexact (hwf : WellFormed d p) (hexact : actualSize d ≠ some d.length)
    (result : Option (List BytesRef)) : ¬Iteration d result := by
  have hwithin := within_payload hp
  obtain ⟨n, hn⟩ := exists_size_of_nth (nth_of_wellFormed hp hwf 0)
  unfold Iteration
  rw [beginIterator_eq hlist hp, hn]
  cases payload_cases hlist hp with
  | inl hnull =>
    rw [hnull.1, sizeAsEncoded_of_empty rfl] at hn
    cases hn
    rw [hnull.1]
    have hplace : (none : Option Nat) ≠ some d.length := (some_ne_none _).symm
    exact not_ends_of_stay hplace result
  | inr hplace =>
    obtain ⟨q, hq, hend⟩ := hplace
    exact (iteration_of_splits (splits_split hwithin) hwithin hq hn []).2.2 hwf (fun heq => hexact (hend.mp heq)) result

end

/-- Counting, walking and indexing agree on a list exactly if its payload is no sequence of items, so that all fail, or
its bytes are one item and no more. -/
theorem traversals_agree_iff (hlist : isList d = true) : NoWrap d ∧ (Agree d ↔
      (∀ p, payload d = some p → ¬WellFormed d p) ∨ actualSize d = some d.length) := by
  refine ⟨noWrap d, ?_⟩
  cases hp : payload d with
  | none => exact ⟨fun _ => .inl nofun, fun _ => .inl (allFail_of_payload hlist hp)⟩
  | some p =>
    by_cases hwf : WellFormed d p
    · constructor
      · intro hagree
        by_contra hnot
        have hnone := not_iteration_of_inexact hlist hp hwf fun hexact => hnot (.inr hexact)
        cases hagree with
        | inl hfail => exact hnone _ hfail.iteration
        | inr hfind =>
          obtain ⟨_, _, hfind⟩ := hfind
          exact hnone _ hfind.iteration
      · intro h
        have hexact := h.resolve_left fun hbad => hbad p rfl hwf
        exact .inr ⟨p, _, allFind_of_exact hlist hp hwf hexact⟩
    · refine ⟨fun _ => .inl fun p' hp' => ?_, fun _ => .inl (allFail_of_malformed hlist hp hwf)⟩
      cases hp'
      exact hwf

theorem traversals_agree_sample :
    let d : List UInt8 := [0xc3, 0x01, 0xc1, 0x02]
    construct d veryStrict = some d ∧ isList d = true ∧ Agree d := by
  intro d
  exact ⟨by decide, by decide, (traversals_agree_iff (by decide)).2.mpr (.inr (by decide))⟩

/-- Nodes that were made without the checks: an empty list with a byte behind it, and the first byte of a list of one
byte. Both have no items for `items`, and the walk over them does not end. -/
theorem not_traversals_agree : (construct [0xc0, 0x00] laissezFaire = some [0xc0, 0x00] ∧ isList [0xc0, 0x00] = true ∧
      Items [0xc0, 0x00] (some 0) ∧ ¬∃ result, Iteration [0xc0, 0x00] result) ∧
    (construct [0xc1] laissezFaire = some [0xc1] ∧ isList [0xc1] = true ∧
      Items [0xc1] (some 0) ∧ ¬∃ result, Iteration [0xc1] result) := by
  constructor
  · refine ⟨by decide, by decide, ?_, ?_⟩
    · exact ⟨1, by decide⟩
    · rintro ⟨result, h⟩
      exact not_iteration_of_inexact (p := ⟨some 1, 0⟩) (by decide) (by decide) (by decide) (by decide) result h
  · refine ⟨by decide, by decide, ?_, ?_⟩
    · exact ⟨1, by decide⟩
    · rintro ⟨result, h⟩
      exact not_iteration_of_inexact (p := .null) (by decide) (by decide) (by decide) (by decide) result h

end RLP

end FiscoBcos
