import FiscoBcos.Devcore.RLPTree

/-!
# Round trip

The stream with its stack of unfinished lists writes what a recursive writer writes. If the bytes of a number are counted
wrong, the output is shorter than the coding, so that it cannot be read as the tree.
-/

namespace FiscoBcos

open List Option Nat

variable {base : Nat}

open Rlp (Item)

namespace RLPStream

inductive Leaf where
  | bytes (s : List UInt8)
  | int (n : Nat)

variable {a : Leaf}

namespace Leaf

def content : Leaf → List UInt8
  | .bytes s => s
  | .int n => Rlp.bigEndian n

def Counted : Leaf → Prop
  | .bytes _ => True
  | .int n => (Rlp.bigEndian n).length < 2 ^ 32

def append : Leaf → RLPStream → Option RLPStream
  | .bytes s => appendBytes s
  | .int n => appendInt n

def write : Leaf → List UInt8 → Option (List UInt8)
  | .bytes s => writeBytes s
  | .int n => writeInt n

end Leaf

mutual

def build : Item Leaf → RLPStream → Option RLPStream
  | .leaf a, s => a.append s
  | .list ts, s => (appendList ts.length s).bind (buildAll ts)

def buildAll : List (Item Leaf) → RLPStream → Option RLPStream
  | [], s => some s
  | t :: ts, s => (build t s).bind (buildAll ts)

end

def encode (t : Item Leaf) : Option (List UInt8) :=
  (build t {}).bind output

section

mutual

/-- The writer without a stack: the bytes in front of a list are put there after its items. -/
def write : Item Leaf → List UInt8 → Option (List UInt8)
  | .leaf a, out => a.write out
  | .list ts, out => (writeAll ts out).bind (insertHeader out.length)

def writeAll : List (Item Leaf) → List UInt8 → Option (List UInt8)
  | [], out => some out
  | t :: ts, out => (write t out).bind (writeAll ts)

end

lemma append_eq {s : RLPStream} :
    a.append s = (a.write s.out).bind fun out => noteAppended 1 { s with out := out } := by
  cases a <;> rfl

lemma buildAll_eq {ts : List (Item Leaf)}
    (h : ∀ t ∈ ts, ∀ s, build t s = (write t s.out).bind fun out => noteAppended 1 { s with out := out })
    (hne : ts ≠ []) (out : List UInt8) (p : Nat) (stack : List (Nat × Nat)) :
    buildAll ts ⟨out, (ts.length, p) :: stack⟩ =
      (writeAll ts out).bind fun o => (insertHeader p o).bind (completeLists stack 1) := by
  induction ts generalizing out with
  | nil => exact absurd rfl hne
  | cons t ts ih =>
    unfold buildAll writeAll
    rw [h t mem_cons_self, bind_assoc, bind_assoc]
    congr 1
    funext o
    cases ts with
    | nil =>
      change ((insertHeader p o).bind (completeLists stack 1)).bind some = _
      rw [bind_fun_some]
      rfl
    | cons =>
      exact ih (fun t ht => h t (mem_cons_of_mem _ ht)) (cons_ne_nil _ _) o

lemma build_eq (t : Item Leaf) (s : RLPStream) :
    build t s = (write t s.out).bind fun out => noteAppended 1 { s with out := out } := by
  induction t using Item.induction generalizing s with
  | leaf => exact append_eq
  | list ts ih =>
    unfold build write appendList
    cases ts with
    | nil =>
      have hheader : insertHeader s.out.length s.out = some (s.out ++ [0xc0]) := by
        unfold insertHeader
        rw [Nat.sub_self, if_pos (by decide), take_length, drop_length]
        rfl
      unfold writeAll
      rw [if_neg (by decide), bind_some, hheader, bind_some]
      exact bind_fun_some _
    | cons t =>
      rw [if_pos (by rw [length_cons]; exact Nat.succ_ne_zero _), bind_some, buildAll_eq (ih) (cons_ne_nil _ _),
        bind_assoc]
      rfl

lemma encode_eq_write (t : Item Leaf) : encode t = write t [] := by
  unfold encode
  rw [build_eq]
  cases write t [] with
  | none | some out => rfl

end

section

variable {out s : List UInt8} {n : Nat}

lemma bytesRequired_eq (h : (Rlp.bigEndian n).length < 2 ^ 32) : bytesRequired n = (Rlp.bigEndian n).length :=
  mod_eq_of_lt h

lemma pushInt_eq (n : Nat) (out : List UInt8) :
    pushInt n (Rlp.bigEndian n).length out = some (out ++ Rlp.bigEndian n) := by
  unfold pushInt
  dsimp only
  rw [length_append, length_replicate, if_neg (by omega), Nat.add_sub_cancel, take_left]

lemma length_bigEndian_le_eight (h : n < 2 ^ 64) : (Rlp.bigEndian n).length ≤ 8 :=
  Rlp.length_bigEndian_le.mpr (by omega)

lemma pushCount_eq (h : n < 2 ^ 64) (hbase : base ≤ 0xf7) (out : List UInt8) :
    pushCount n base out = some (out ++ Rlp.pushCount n base) := by
  have hlen := length_bigEndian_le_eight h
  unfold pushCount Rlp.pushCount
  rw [bytesRequired_eq (by omega), if_neg (by omega), pushInt_eq, append_assoc, add_comm]
  rfl

lemma insertHeader_eq (h : Rlp.Fits s) : insertHeader out.length (out ++ s) = some (out ++ Rlp.appendList s) := by
  unfold Rlp.Fits at h
  have hlen := length_bigEndian_le_eight (n := s.length) (by omega)
  unfold insertHeader Rlp.appendList
  rw [length_append, Nat.add_sub_cancel_left, take_left, drop_left]
  by_cases hshort : s.length < 56
  · rw [if_pos hshort, if_pos hshort]
  · rw [if_neg hshort, if_neg hshort, bytesRequired_eq (by omega), if_pos (by omega)]
    rfl

lemma writeBytes_eq (h : Rlp.Fits s) : writeBytes s out = some (out ++ Rlp.appendBytes s) := by
  unfold Rlp.Fits at h
  unfold writeBytes Rlp.appendBytes
  by_cases hone : s.length = 1 ∧ s.headD 0 < 0x80
  · rw [if_pos hone, if_pos hone]
  rw [if_neg hone, if_neg hone]
  by_cases hshort : s.length < 56
  · rw [if_pos hshort, if_pos hshort, map_some, append_assoc, add_comm]
    rfl
  · rw [if_neg hshort, if_neg hshort, pushCount_eq (by omega) (by decide), map_some, append_assoc]

lemma writeInt_eq (h : (Rlp.bigEndian n).length < 2 ^ 32) :
    writeInt n out = some (out ++ Rlp.appendBytes (Rlp.bigEndian n)) := by
  rw [← Rlp.appendInt_eq]
  unfold writeInt Rlp.appendInt
  by_cases h0 : n = 0
  · rw [if_pos h0, if_pos h0]
  rw [if_neg h0, if_neg h0]
  by_cases hsmall : n < 0x80
  · rw [if_pos hsmall, if_pos hsmall]
  rw [if_neg hsmall, if_neg hsmall]
  dsimp only
  rw [bytesRequired_eq h]
  by_cases hshort : (Rlp.bigEndian n).length < 56
  · rw [if_pos hshort, if_pos hshort, bind_some, pushInt_eq, append_assoc, add_comm]
  -- the size of the size
  have hlen := length_bigEndian_le_eight (n := (Rlp.bigEndian n).length) (by omega)
  rw [if_neg hshort, if_neg hshort, bytesRequired_eq (by omega), if_neg (by omega), pushInt_eq, bind_some, pushInt_eq]
  rw [append_assoc, append_assoc]
  rfl

lemma write_leaf_eq (hc : a.Counted) (ha : Rlp.Fits a.content) :
    a.write out = some (out ++ Rlp.appendBytes a.content) := by
  cases a with
  | bytes => exact writeBytes_eq ha
  | int => exact writeInt_eq hc

lemma write_eq {t : Item Leaf} (hc : t.All Leaf.Counted) (ha : (t.map Leaf.content).Announced) :
    write t out = some (out ++ (t.map Leaf.content).encode) := by
  induction t using Item.induction generalizing out with
  | leaf => exact write_leaf_eq hc ha
  | list ts ih =>
    obtain ⟨hfits, hann⟩ := ha
    have hall : ∀ out, writeAll ts out = some (out ++ Item.encodeAll (Item.mapAll Leaf.content ts)) := by
      clear hfits
      change Item.AllList Leaf.Counted ts at hc
      induction ts with
      | nil =>
        intro out
        unfold writeAll Item.mapAll Item.encodeAll
        rw [append_nil]
      | cons t ts ihts =>
        intro out
        unfold writeAll Item.mapAll Item.encodeAll
        rw [ih t mem_cons_self hc.1 hann.1, bind_some,
          ihts (fun t ht => ih t (mem_cons_of_mem _ ht)) hann.2 hc.2, append_assoc]
    change (writeAll ts out).bind (insertHeader out.length) = _
    rw [hall, bind_some]
    exact insertHeader_eq hfits

end

section

variable {out o s : List UInt8} {n p br : Nat}

def headerLength (n : Nat) : Nat :=
  if n < 56 then 1 else 1 + (Rlp.bigEndian n).length

lemma length_bigEndian_mono {m : Nat} (h : n ≤ m) : (Rlp.bigEndian n).length ≤ (Rlp.bigEndian m).length :=
  Rlp.length_bigEndian_le.mpr (h.trans_lt (Rlp.length_bigEndian_le.mp (le_rfl)))

lemma headerLength_mono {m : Nat} (h : n ≤ m) : headerLength n ≤ headerLength m := by
  have hmono := length_bigEndian_mono h
  unfold headerLength
  split_ifs <;> omega

lemma length_appendList (s : List UInt8) : (Rlp.appendList s).length = headerLength s.length + s.length := by
  unfold Rlp.appendList headerLength Rlp.pushCount
  split
  · rw [length_cons, add_comm]
  · rw [length_append, length_cons]
    omega

lemma length_pushInt (h : pushInt n br out = some o) : o.length = out.length + br := by
  unfold pushInt at h
  dsimp only at h
  rw [length_append, length_replicate] at h
  by_cases hlt : out.length + br < (Rlp.bigEndian n).length
  · rw [if_pos hlt] at h
    cases h
  rw [if_neg hlt] at h
  cases h
  rw [length_append, length_take, length_append, length_replicate]
  omega

lemma bytesRequired_le (n : Nat) : bytesRequired n ≤ (Rlp.bigEndian n).length :=
  mod_le _ _

lemma length_pushCount (h : pushCount n base out = some o) :
    out.length ≤ o.length ∧ o.length ≤ out.length + 1 + (Rlp.bigEndian n).length := by
  unfold pushCount at h
  by_cases hbig : bytesRequired n + base > 0xff
  · rw [if_pos hbig] at h
    cases h
  rw [if_neg hbig] at h
  have hlen := length_pushInt h
  have hle := bytesRequired_le n
  rw [length_append, length_singleton] at hlen
  omega

lemma length_insertHeader (h : insertHeader p out = some o) (hp : p ≤ out.length) :
    o.length = out.length + headerLength (out.length - p) := by
  unfold insertHeader at h
  unfold headerLength
  by_cases hshort : out.length - p < 56
  · rw [if_pos hshort] at h ⊢
    cases h
    rw [length_append, length_cons, length_take, length_drop]
    omega
  rw [if_neg hshort] at h ⊢
  by_cases hbrs : 0xf7 + bytesRequired (out.length - p) ≤ 0xff
  · rw [if_pos hbrs] at h
    cases h
    rw [length_append, length_cons, length_append, length_take, length_drop]
    omega
  · rw [if_neg hbrs] at h
    cases h

structure Short (before after code : Nat) (counted : Prop) : Prop where
  grows : before ≤ after
  short : after ≤ before + code
  counted : after = before + code → counted

lemma length_writeBytes (h : writeBytes s out = some o) :
    Short out.length o.length (Rlp.appendBytes s).length True := by
  unfold writeBytes at h
  unfold Rlp.appendBytes Rlp.pushCount
  by_cases hone : s.length = 1 ∧ s.headD 0 < 0x80
  · rw [if_pos hone] at h ⊢
    cases h
    rw [length_append]
    exact ⟨le_add_right _ _, le_rfl, fun _ => trivial⟩
  rw [if_neg hone] at h ⊢
  by_cases hshort : s.length < 56
  · rw [if_pos hshort, map_some] at h
    rw [if_pos hshort]
    cases h
    rw [length_append, length_append, length_singleton, length_cons]
    exact ⟨by omega, by omega, fun _ => trivial⟩
  · rw [if_neg hshort] at h ⊢
    obtain ⟨o', ho', rfl⟩ := map_eq_some_iff.mp h
    obtain ⟨hge, hle⟩ := length_pushCount ho'
    rw [length_append, length_append, length_cons]
    exact ⟨by omega, by omega, fun _ => trivial⟩

lemma length_writeInt (h : writeInt n out = some o) :
    Short out.length o.length (Rlp.appendBytes (Rlp.bigEndian n)).length ((Rlp.bigEndian n).length < 2 ^ 32) := by
  rw [← Rlp.appendInt_eq]
  unfold writeInt at h
  unfold Rlp.appendInt Rlp.pushCount
  by_cases h0 : n = 0
  · rw [if_pos h0] at h ⊢
    cases h
    rw [length_append, h0]
    exact ⟨le_add_right _ _, le_rfl, fun _ => by decide⟩
  rw [if_neg h0] at h ⊢
  by_cases hsmall : n < 0x80
  · rw [if_pos hsmall] at h ⊢
    cases h
    have hone : (Rlp.bigEndian n).length ≤ 1 := Rlp.length_bigEndian_le.mpr (by omega)
    rw [length_append]
    exact ⟨le_add_right _ _, le_rfl, fun _ => by omega⟩
  rw [if_neg hsmall] at h ⊢
  dsimp only at h ⊢
  obtain ⟨o', ho', hpush⟩ := bind_eq_some_iff.mp h
  have hlen := length_pushInt hpush
  have hbr := bytesRequired_le n
  -- the bytes in front are those of a number that is not larger
  have hheader : out.length ≤ o'.length ∧ o'.length ≤ out.length + headerLength (bytesRequired n) := by
    unfold headerLength
    by_cases hshort : bytesRequired n < 56
    · rw [if_pos hshort] at ho' ⊢
      cases ho'
      rw [length_append, length_singleton]
      exact ⟨by omega, by omega⟩
    rw [if_neg hshort] at ho' ⊢
    by_cases hbig : 0xb7 + bytesRequired (bytesRequired n) > 0xff
    · rw [if_pos hbig] at ho'
      cases ho'
    rw [if_neg hbig] at ho'
    have hlen' := length_pushInt ho'
    have hbrbr := bytesRequired_le (bytesRequired n)
    rw [length_append, length_singleton] at hlen'
    exact ⟨by omega, by omega⟩
  have hcode : ((if (Rlp.bigEndian n).length < 56 then [UInt8.ofNat (0x80 + (Rlp.bigEndian n).length)]
      else UInt8.ofNat (0xb7 + (Rlp.bigEndian (Rlp.bigEndian n).length).length) ::
        Rlp.bigEndian (Rlp.bigEndian n).length) ++ Rlp.bigEndian n).length =
      headerLength (Rlp.bigEndian n).length + (Rlp.bigEndian n).length := by
    unfold headerLength
    rw [length_append]
    split
    · rfl
    · rw [length_cons, add_comm 1]
  have hmono := headerLength_mono hbr
  refine ⟨by omega, by omega, fun heq => ?_⟩
  have hmod : (Rlp.bigEndian n).length % 2 ^ 32 = (Rlp.bigEndian n).length := by
    change bytesRequired n = _
    omega
  rw [← hmod]
  exact mod_lt _ (by decide)

lemma length_write_leaf (h : a.write out = some o) :
    Short out.length o.length (Rlp.appendBytes a.content).length a.Counted := by
  cases a with
  | bytes => exact length_writeBytes h
  | int => exact length_writeInt h

lemma length_write (t : Item Leaf) (h : write t out = some o) :
    Short out.length o.length (t.map Leaf.content).encode.length (t.All Leaf.Counted) := by
  induction t using Item.induction generalizing out o with
  | leaf => exact length_write_leaf h
  | list ts ih =>
    have hall : ∀ {out o : List UInt8}, writeAll ts out = some o → Short out.length o.length
        (Item.encodeAll (Item.mapAll Leaf.content ts)).length (Item.AllList Leaf.Counted ts) := by
      clear h
      induction ts with
      | nil =>
        intro out o h
        cases h
        exact ⟨le_rfl, le_add_right _ _, fun _ => trivial⟩
      | cons t ts ihts =>
        intro out o h
        obtain ⟨o', ho', hrest⟩ := bind_eq_some_iff.mp h
        have hhead := ih t mem_cons_self ho'
        have htail := ihts (fun t ht => ih t (mem_cons_of_mem _ ht)) hrest
        have h1 := hhead.grows
        have h2 := hhead.short
        have h3 := htail.grows
        have h4 := htail.short
        unfold Item.mapAll Item.encodeAll
        rw [length_append]
        refine ⟨by omega, by omega, fun heq => ⟨hhead.counted ?_, htail.counted ?_⟩⟩
        · omega
        · omega
    obtain ⟨o', ho', hheader⟩ := bind_eq_some_iff.mp h
    have hitems := hall ho'
    have hgrows := hitems.grows
    have hshort := hitems.short
    have hlen := length_insertHeader hheader hgrows
    change Short out.length o.length
      (Rlp.appendList (Item.encodeAll (Item.mapAll Leaf.content ts))).length (Item.AllList Leaf.Counted ts)
    rw [length_appendList]
    generalize (Item.encodeAll (Item.mapAll Leaf.content ts)).length = code at hitems hshort ⊢
    have hmono := headerLength_mono (show o'.length - out.length ≤ code by omega)
    refine ⟨by omega, by omega, fun heq => hitems.counted ?_⟩
    omega

end

lemma map_content_bytes (u : Item (List UInt8)) : (u.map Leaf.bytes).map Leaf.content = u := by
  induction u using Item.induction with
  | leaf => rfl
  | list ts ih =>
    have hall : Item.mapAll Leaf.content (Item.mapAll Leaf.bytes ts) = ts := by
      induction ts with
      | nil => rfl
      | cons t ts ihts =>
        change Item.map Leaf.content (Item.map Leaf.bytes t) ::
          Item.mapAll Leaf.content (Item.mapAll Leaf.bytes ts) = t :: ts
        rw [ih t mem_cons_self, ihts fun t ht => ih t (mem_cons_of_mem _ ht)]
    exact congrArg Item.list hall

lemma counted_bytes (u : Item (List UInt8)) : (u.map Leaf.bytes).All Leaf.Counted := by
  induction u using Item.induction with
  | leaf => trivial
  | list ts ih =>
    change Item.AllList Leaf.Counted (Item.mapAll Leaf.bytes ts)
    induction ts with
    | nil => trivial
    | cons t ts ihts =>
      exact ⟨ih t mem_cons_self, ihts fun t ht => ih t (mem_cons_of_mem _ ht)⟩

/-- A tree is read back from what a stream writes for it exactly if every size can be announced and every number has
fewer than 2 ^ 32 bytes, and what is read in full is what a stream writes for the tree that is read. -/
theorem read_encode_iff (t : Item Leaf) (d : List UInt8) (u : Item (List UInt8)) :
    ((∃ out depth, encode t = some out ∧ RLP.read depth out = some (t.map Leaf.content)) ↔
      t.All Leaf.Counted ∧ (t.map Leaf.content).Announced) ∧
    ((∃ depth, RLP.read depth d = some u) → encode (u.map Leaf.bytes) = some d) := by
  constructor
  · constructor
    · rintro ⟨out, depth, hout, hread⟩
      obtain ⟨hcode, hann⟩ := RLP.eq_encode_of_read hread
      rw [encode_eq_write] at hout
      refine ⟨(length_write t hout).counted ?_, hann⟩
      rw [hcode, length_nil, zero_add]
    · rintro ⟨hcounted, hann⟩
      refine ⟨(t.map Leaf.content).encode, (t.map Leaf.content).height + 1, ?_, ?_⟩
      · rw [encode_eq_write, write_eq hcounted hann, nil_append]
      · exact RLP.read_encode _ hann (Nat.lt_succ_self _)
  · rintro ⟨depth, hread⟩
    obtain ⟨hcode, hann⟩ := RLP.eq_encode_of_read hread
    have hcontent := map_content_bytes u
    rw [encode_eq_write, write_eq (counted_bytes u) (by rw [hcontent]; exact hann), hcontent, nil_append, hcode]

/-- A string, a number and lists in a list. What is read is written in the same way. -/
theorem read_encode_sample :
    let t : Item Leaf := .list [.leaf (.bytes [0x61, 0x62]), .list [], .list [.leaf (.int 200)]]
    ∃ out depth, (encode t = some out ∧ RLP.read depth out = some (t.map Leaf.content)) ∧
      encode ((t.map Leaf.content).map Leaf.bytes) = some out := by
  intro t
  have hdigits : Rlp.bigEndian 200 = [0xc8] := by simp [Rlp.bigEndian]
  have hcounted : (Leaf.int 200).Counted := by
    change (Rlp.bigEndian 200).length < 2 ^ 32
    decide
  have hann : (t.map Leaf.content).Announced := by
    have hfits {s : List UInt8} (h : s.length < 56) : Rlp.Fits s := by
      unfold Rlp.Fits
      omega
    exact ⟨hfits (by decide), hfits (by decide), ⟨hfits (by decide), trivial⟩,
      ⟨hfits (by decide), hfits (by decide), trivial⟩, trivial⟩
  obtain ⟨out, depth, hout, hread⟩ :=
    (read_encode_iff t [] (.leaf [])).1.mpr ⟨⟨trivial, trivial, ⟨hcounted, trivial⟩, trivial⟩, hann⟩
  exact ⟨out, depth, ⟨hout, hread⟩, (read_encode_iff t out (t.map Leaf.content)).2 ⟨depth, hread⟩⟩

lemma length_bigEndian_pow (k : Nat) : (Rlp.bigEndian (256 ^ k)).length = k + 1 := by
  apply le_antisymm
  · exact Rlp.length_bigEndian_le.mpr (Nat.pow_lt_pow_right (by decide) (Nat.lt_succ_self k))
  · by_contra hlt
    exact lt_irrefl _ (Rlp.length_bigEndian_le.mp (le_of_lt_succ (not_le.mp hlt)))

lemma encode_int_eq_none {n : Nat} (h : (Rlp.bigEndian n).length = 2 ^ 32) : encode (.leaf (.int n)) = none := by
  have hbig : ¬n < 0x80 := by
    intro hsmall
    have hone : (Rlp.bigEndian n).length ≤ 1 := Rlp.length_bigEndian_le.mpr (by omega)
    omega
  have hbr : bytesRequired n = 0 := by
    unfold bytesRequired
    rw [h, mod_self]
  rw [encode_eq_write]
  change writeInt n [] = none
  unfold writeInt
  rw [if_neg (by omega), if_neg hbig]
  dsimp only
  rw [hbr, if_pos (by decide), bind_some]
  unfold pushInt
  dsimp only
  rw [h]
  exact if_pos (by decide)

/-- The smallest number of 2 ^ 32 bytes. The counter of its bytes is 0, and the bytes are written in front of those of
the stream. -/
theorem not_read_encode : encode (.leaf (.int (256 ^ (2 ^ 32 - 1)))) = none :=
  encode_int_eq_none ((length_bigEndian_pow _).trans (by decide))

end RLPStream

end FiscoBcos
