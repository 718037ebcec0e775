import FiscoBcos.Devcore.RLPStream
import FiscoBcos.Devcore.RLPTraversals

/-!
# Trees written and read back

What a stream writes for a tree of byte strings and numbers is read back as the same tree, where a number is the byte
string of its digits.
-/

namespace FiscoBcos

open List Option Rlp Item

namespace RLP

variable {d : List UInt8} {p r rest : BytesRef} {n : Nat} {es : List BytesRef}

def toList (d : List UInt8) : Option (List BytesRef) :=
  (payload d).bind fun p => if WellFormed d p then some (split d p).1 else none

/-- The tree of a node and of all its items, up to a depth; every node is made by the strict constructor. -/
def read : Nat → List UInt8 → Option (Item (List UInt8))
  | 0, _ => none
  | k + 1, d =>
    (construct d veryStrict).bind fun d =>
      if isData d then (toBytes d).map .leaf
      else if isList d then ((toList d).bind fun es => es.mapM fun e => read k (e.bytes d)).map .list
      else none

theorem iteration_toList (hlist : isList d = true) (hexact : actualSize d = some d.length) : Iteration d (toList d) := by
  unfold toList
  cases hp : payload d with
  | none => exact (allFail_of_payload hlist hp).iteration
  | some p =>
    rw [bind_some]
    by_cases hwf : WellFormed d p
    · rw [if_pos hwf]
      exact (allFind_of_exact hlist hp hwf hexact).iteration
    · rw [if_neg hwf]
      exact (allFail_of_malformed hlist hp hwf).iteration

theorem iteration_toList_of_two :
    (toList [0xc2, 1, 2]).map List.length = some 2 ∧ Iteration [0xc2, 1, 2] (toList [0xc2, 1, 2]) :=
  ⟨by decide +kernel, iteration_toList (by decide +kernel) (by decide +kernel)⟩

lemma check_eq_some {s : Strictness} {fails : Nat → Bool} {e : List UInt8} (hthrow : s.throwOnFail = true) :
    check s true fails d = some e ↔ ∃ n, actualSize d = some n ∧ fails n = false ∧ e = d := by
  unfold check
  rw [if_neg (by decide), bind_eq_some_iff, hthrow]
  apply exists_congr
  intro n
  apply and_congr_right
  intro _
  cases fails n with
  | false =>
    exact ⟨fun h => ⟨rfl, (some.inj h).symm⟩, fun h => congrArg some h.2.symm⟩
  | true => simp

lemma construct_veryStrict {e : List UInt8} :
    construct d veryStrict = some e ↔ actualSize d = some d.length ∧ e = d := by
  constructor
  · intro h
    obtain ⟨d', hbig, hsmall⟩ := bind_eq_some_iff.mp h
    obtain ⟨n, hn, hle, rfl⟩ := (check_eq_some rfl).mp hbig
    obtain ⟨m, hm, hge, rfl⟩ := (check_eq_some rfl).mp hsmall
    cases hn.symm.trans hm
    have h1 := of_decide_eq_false hle
    have h2 := of_decide_eq_false hge
    rw [hn, show n = e.length by omega]
    exact ⟨rfl, rfl⟩
  · rintro ⟨hsize, rfl⟩
    have hirrefl : decide (e.length < e.length) = false := decide_eq_false (lt_irrefl _)
    exact bind_eq_some_iff.mpr ⟨e, (check_eq_some rfl).mpr ⟨_, hsize, hirrefl, rfl⟩,
      (check_eq_some rfl).mpr ⟨_, hsize, hirrefl, rfl⟩⟩

lemma bytes_croppedFrom (h : Within d r) (hn : n ≤ r.count) : (r.croppedFrom n).bytes d = (r.bytes d).drop n := by
  unfold BytesRef.bytes
  cases hdata : r.data with
  | none =>
    have hnull : r.croppedFrom n = .null := by
      unfold BytesRef.croppedFrom
      rw [hdata]
    rw [hnull, h.null hdata, take_zero, drop_nil]
    rfl
  | some q =>
    rw [croppedFrom_eq hdata hn]
    change ((d.drop (q + n)).take (r.count - n)) = ((d.drop q).take r.count).drop n
    rw [drop_take, drop_drop]

lemma payload_bytes (d : List UInt8) : (payload d).map (fun p => p.bytes d) = Rlp.payload d := by
  unfold payload Rlp.payload
  cases Rlp.length d with
  | none => rfl
  | some =>
    rw [bind_some, bind_some]
    split
    · rfl
    unfold BytesRef.cropped data cropped
    dsimp only
    split
    · rw [zero_add]
      rfl
    · rfl

lemma flatten_of_splits (hs : Splits d r es rest) (h : Within d r) (hrest : rest.count = 0) :
    (es.map fun e => e.bytes d).flatten = r.bytes d := by
  induction hs with
  | @stop r _ =>
    unfold BytesRef.bytes
    rw [hrest]
    rfl
  | item hn hsize _ ih =>
    have hle := sizeAsEncoded_le h hsize
    rw [map_cons, flatten_cons, ih (within_croppedFrom h) hrest, bytes_cropped h hle,
      bytes_croppedFrom h hle, take_append_drop]

lemma splits_flatten {bs : List (List UInt8)} (hs : Splits d r es rest) (h : Within d r)
    (hbytes : r.bytes d = bs.flatten) (hbs : ∀ b ∈ bs, b ≠ [] ∧ ∀ s, actualSize (b ++ s) = some b.length) :
    rest.count = 0 ∧ es.map (fun e => e.bytes d) = bs := by
  induction hs generalizing bs with
  | @stop r hstop =>
    have hlength := length_bytes h
    cases bs with
    | nil =>
      rw [hbytes] at hlength
      exact ⟨hlength.symm, rfl⟩
    | cons b =>
      obtain ⟨hne, hsize⟩ := hbs b mem_cons_self
      have hpos := length_pos_iff.mpr hne
      rw [hbytes, flatten_cons, length_append] at hlength
      have hsome : sizeAsEncoded d r = some b.length := by
        apply sizeAsEncoded_eq_some.mpr
        rw [hbytes, flatten_cons, length_append]
        exact ⟨hsize _, by omega⟩
      cases hstop with
      | inl => omega
      | inr hnone => cases hnone.symm.trans hsome
  | @item r rest n es hn hsize _ ih =>
    have hle := sizeAsEncoded_le h hsize
    have hactual := (sizeAsEncoded_eq_some.mp hsize).1
    cases bs with
    | nil =>
      rw [hbytes] at hactual
      exact absurd (some.inj hactual).symm hn
    | cons b =>
      obtain ⟨-, hb⟩ := hbs b mem_cons_self
      rw [flatten_cons] at hbytes
      rw [hbytes, hb] at hactual
      cases hactual
      have hdrop := bytes_croppedFrom h hle
      rw [hbytes, drop_left] at hdrop
      obtain ⟨hrest, hes⟩ := ih (within_croppedFrom h) hdrop fun b' hb' => hbs b' (mem_cons_of_mem _ hb')
      refine ⟨hrest, ?_⟩
      rw [map_cons, hes, bytes_cropped h hle, hbytes, take_left]

lemma isList_eq_not_isData {b : UInt8} {s : List UInt8} : isList (b :: s) = !isData (b :: s) := by
  unfold isList isData
  by_cases hb : b.toNat < 0xc0
  · simp [hb]
  · simp [hb, not_lt.mp hb]

lemma mapM_eq_some {α β : Type} {f : α → Option β} {l : List α} {l' : List β} :
    l.mapM f = some l' ↔ List.Forall₂ (fun a b => f a = some b) l l' := by
  induction l generalizing l' with
  | nil =>
    rw [mapM_nil, forall₂_nil_left_iff]
    exact ⟨fun h => (some.inj h).symm, fun h => congrArg some h.symm⟩
  | cons a l ih =>
    rw [mapM_cons, forall₂_cons_left_iff]
    constructor
    · intro h
      obtain ⟨b, hb, hrest⟩ := bind_eq_some_iff.mp h
      obtain ⟨bs, hbs, hpure⟩ := bind_eq_some_iff.mp hrest
      exact ⟨b, bs, hb, ih.mp hbs, (some.inj hpure).symm⟩
    · rintro ⟨b, bs, hb, hbs, rfl⟩
      exact bind_eq_some_iff.mpr ⟨b, hb, bind_eq_some_iff.mpr ⟨bs, ih.mpr hbs, rfl⟩⟩

lemma encode_of_forall₂ {P : Item (List UInt8) → Prop} {f : List UInt8 → Option (Item (List UInt8))}
    {ts : List (Item (List UInt8))} (hf : ∀ {s t}, f s = some t → s = t.encode ∧ P t)
    (h : List.Forall₂ (fun e t => f (e.bytes d) = some t) es ts) :
    es.map (fun e => e.bytes d) = ts.map encode ∧ ∀ t ∈ ts, P t := by
  induction h with
  | nil => exact ⟨rfl, nofun⟩
  | cons hhead _ ih =>
    obtain ⟨hbytes, ht⟩ := hf hhead
    rw [map_cons, map_cons, ← hbytes, ih.1, forall_mem_cons]
    exact ⟨rfl, ht, ih.2⟩

lemma eq_encode_of_read {k : Nat} {t : Item (List UInt8)} (h : read k d = some t) : d = t.encode ∧ t.Announced := by
  induction k generalizing d t with
  | zero => cases h
  | succ k ih =>
    obtain ⟨d', hd', hread⟩ := bind_eq_some_iff.mp h
    obtain ⟨hsize, rfl⟩ := construct_veryStrict.mp hd'
    by_cases hdata : isData d' = true
    · rw [if_pos hdata] at hread
      obtain ⟨s, hs, rfl⟩ := map_eq_some_iff.mp hread
      unfold toBytes at hs
      rw [if_neg (by rw [hdata]; decide)] at hs
      exact eq_appendBytes hdata hsize hs
    rw [if_neg hdata] at hread
    by_cases hlist : isList d' = true
    · rw [if_pos hlist] at hread
      obtain ⟨ts, hts, rfl⟩ := map_eq_some_iff.mp hread
      obtain ⟨es, hes, hmap⟩ := bind_eq_some_iff.mp hts
      obtain ⟨p, hp, hif⟩ := bind_eq_some_iff.mp hes
      by_cases hwf : WellFormed d' p
      · rw [if_pos hwf] at hif
        cases hif
        have hpay := payload_bytes d'
        rw [hp, map_some, ← flatten_of_splits (splits_split (within_payload hp)) (within_payload hp) hwf] at hpay
        have hitems := encode_of_forall₂ ih (mapM_eq_some.mp hmap)
        rw [hitems.1, ← encodeAll_eq] at hpay
        cases d' with
        | nil => cases hlist
        | cons =>
          obtain ⟨heq, hfits⟩ := eq_appendList (Bool.eq_false_iff.mpr hdata) hsize hpay.symm
          exact ⟨heq, hfits, announcedAll_iff.mpr hitems.2⟩
      · rw [if_neg hwf] at hif
        cases hif
    · rw [if_neg hlist] at hread
      cases hread

lemma read_encode (t : Item (List UInt8)) (h : t.Announced) {k : Nat} (hk : t.height < k) :
    read k t.encode = some t := by
  induction t using induction generalizing k with
  | leaf s =>
    obtain ⟨k, rfl⟩ := Nat.exists_eq_succ_of_ne_zero (Nat.ne_zero_of_lt hk)
    have hencodes := encodes_appendBytes h
    have hsize := hencodes.size []
    rw [append_nil] at hsize
    change read (k + 1) (appendBytes s) = _
    unfold read
    rw [construct_veryStrict.mpr ⟨hsize, rfl⟩, bind_some, if_pos hencodes.data, hencodes.toBytes]
    rfl
  | list ts ih =>
    obtain ⟨hfits, hann⟩ := h
    have hall := announcedAll_iff.mp hann
    obtain ⟨k, rfl⟩ := Nat.exists_eq_succ_of_ne_zero (Nat.ne_zero_of_lt hk)
    have hheight : heightAll ts < k := by
      unfold height at hk
      omega
    obtain ⟨hsize, hpay⟩ := appendList_spec hfits
    have hexact := hsize []
    rw [append_nil] at hexact
    change read (k + 1) (appendList (encodeAll ts)) = _
    unfold read
    rw [construct_veryStrict.mpr ⟨hexact, rfl⟩, bind_some]
    have hdata := isData_appendList hfits
    obtain ⟨b, s, hcons⟩ := exists_cons_of_ne_nil (encode_ne_nil (t := .list ts) ⟨hfits, hann⟩)
    change appendList (encodeAll ts) = b :: s at hcons
    rw [hcons] at hdata hexact hpay ⊢
    have hlist : isList (b :: s) = true := by rw [isList_eq_not_isData, hdata]; rfl
    rw [if_neg (by rw [hdata]; decide), if_pos hlist]
    have hbytes := payload_bytes (b :: s)
    rw [hpay, encodeAll_eq] at hbytes
    obtain ⟨p, hp, hflatten⟩ := map_eq_some_iff.mp hbytes
    obtain ⟨hwf, hitems⟩ := splits_flatten (splits_split (within_payload hp)) (within_payload hp) hflatten (by
        intro e he
        obtain ⟨t, ht, rfl⟩ := mem_map.mp he
        exact ⟨encode_ne_nil (hall t ht), actualSize_encode (hall t ht)⟩)
    have htoList : toList (b :: s) = some (split (b :: s) p).1 := by
      unfold toList
      rw [hp, bind_some]
      exact if_pos hwf
    have hread : (split (b :: s) p).1.mapM (fun e => read k (e.bytes (b :: s))) = some ts := by
      have hcompose : (split (b :: s) p).1.mapM (fun e => read k (e.bytes (b :: s))) =
          ((split (b :: s) p).1.map fun e => e.bytes (b :: s)).mapM (read k) := by
        rw [mapM_map]
        rfl
      rw [hcompose, hitems, mapM_eq_some, forall₂_map_left_iff, forall₂_same]
      intro t ht
      have hle := height_le_heightAll ht
      exact ih t ht (hall t ht) (by omega)
    rw [htoList, bind_some, hread]
    rfl

end RLP

end FiscoBcos
