import Mathlib.Data.List.Basic

/-!
# A buffer filled in pieces

Blocks that lie one after another are copied into a buffer. Whatever the order of the copies, the buffer
holds in the end the concatenation of the blocks.
-/

namespace Slices

open List Option

variable {α : Type*}

def write (data : List α) (offset : Nat) (block : List α) : List α :=
  data.take offset ++ block ++ data.drop (offset + block.length)

def writeAll (data : List α) (copies : List (Nat × List α)) : List α :=
  copies.foldl (fun data c => write data c.1 c.2) data

def layout (offset : Nat) : List (List α) → List (Nat × List α)
  | [] => []
  | block :: blocks => (offset, block) :: layout (offset + block.length) blocks

def Slice (target : List α) (c : Nat × List α) : Prop :=
  ∃ before after, target = before ++ c.2 ++ after ∧ before.length = c.1

def Covers (c : Nat × List α) (i : Nat) : Prop :=
  c.1 ≤ i ∧ i < c.1 + c.2.length

instance (c : Nat × List α) (i : Nat) : Decidable (Covers c i) :=
  inferInstanceAs (Decidable (_ ∧ _))

lemma layout_append (offset : Nat) (bs cs : List (List α)) :
    layout offset (bs ++ cs) = layout offset bs ++ layout (offset + bs.flatten.length) cs := by
  induction bs generalizing offset with
  | nil => simp [layout]
  | cons b bs ih => simp [layout, ih, Nat.add_assoc]

variable {blocks : List (List α)}

lemma slice_of_mem_layout {target p : List α} {c : Nat × List α}
    (htarget : target = p ++ blocks.flatten) (hc : c ∈ layout p.length blocks) : Slice target c := by
  induction blocks generalizing p with
  | nil => simp [layout] at hc
  | cons b bs ih =>
    rw [flatten_cons] at htarget
    rcases mem_cons.mp hc with rfl | hc
    · exact ⟨p, bs.flatten, by rw [htarget, append_assoc], rfl⟩
    · apply ih (p := p ++ b)
      · rw [htarget, append_assoc]
      · rwa [length_append]

lemma countP_covers (o i : Nat) :
    (layout o blocks).countP (fun c => Covers c i) = if o ≤ i ∧ i < o + blocks.flatten.length then 1 else 0 := by
  induction blocks generalizing o with
  | nil =>
    rw [if_neg (by simp)]
    rfl
  | cons b bs ih =>
    rw [layout, countP_cons, ih, flatten_cons, length_append]
    grind [Covers]

section

variable {ρ : Type*} {pieces : ρ → List (List α)} {next : Nat → ρ → Nat}
  (hnext : ∀ o r, next o r = o + (pieces r).flatten.length) (rows : List ρ) (o : Nat)

include hnext

/-- Rows of pieces, each row copied from the offset at which the row before it ends. -/
lemma flatMap_layout : (rows.zip (rows.scanl next o)).flatMap (fun e => layout e.2 (pieces e.1)) =
    layout o (rows.flatMap pieces) := by
  induction rows generalizing o with
  | nil => rfl
  | cons r rows ih => rw [scanl_cons, zip_cons_cons, flatMap_cons, ih, flatMap_cons, layout_append, hnext]

lemma getD_scanl : (rows.scanl next o).getD rows.length 0 = o + (rows.flatMap pieces).flatten.length := by
  induction rows generalizing o with
  | nil => rfl
  | cons r rows ih =>
    rw [scanl_cons, length_cons, getD_cons_succ, ih, hnext, flatMap_cons, flatten_append, length_append, Nat.add_assoc]

end

section

variable {target data : List α} {c : Nat × List α}

lemma Slice.le (h : Slice target c) : c.1 + c.2.length ≤ target.length := by
  obtain ⟨before, after, rfl, hlen⟩ := h
  simp
  omega

lemma length_write (h : Slice target c) (hlen : data.length = target.length) :
    (write data c.1 c.2).length = target.length := by
  have hle := h.le
  simp only [write, length_append, length_take, length_drop]
  omega

lemma getElem?_write (h : Slice target c) (hlen : data.length = target.length) (i : Nat) :
    (write data c.1 c.2)[i]? = if Covers c i then target[i]? else data[i]? := by
  have hle := h.le
  obtain ⟨before, after, htarget, hbefore⟩ := h
  have htake : (data.take c.1).length = c.1 := by
    rw [length_take]
    omega
  unfold write
  rcases Nat.lt_or_ge i c.1 with hlt | hge
  · rw [if_neg (fun hcov => by have := hcov.1; omega), append_assoc,
      getElem?_append_left (by omega), getElem?_take, if_pos hlt]
  rw [append_assoc, getElem?_append_right (by omega), htake]
  rcases Nat.lt_or_ge i (c.1 + c.2.length) with hlt' | hge'
  · rw [if_pos ⟨hge, hlt'⟩, getElem?_append_left (by omega), htarget, append_assoc,
      getElem?_append_right (by omega), getElem?_append_left (by omega), hbefore]
  · rw [if_neg (fun hcov => by have := hcov.2; omega), getElem?_append_right (by omega), getElem?_drop]
    congr 1
    omega

end

lemma getElem?_writeAll {target data : List α} {copies : List (Nat × List α)}
    (h : ∀ c ∈ copies, Slice target c) (hlen : data.length = target.length) (i : Nat) :
    (writeAll data copies)[i]? = if 0 < copies.countP fun c => Covers c i then target[i]? else data[i]? := by
  induction copies generalizing data with
  | nil => simp [writeAll]
  | cons c cs ih =>
    have hc := h c mem_cons_self
    change (writeAll (write data c.1 c.2) cs)[i]? = _
    rw [ih (fun c hc => h c (mem_cons_of_mem _ hc)) (length_write hc hlen), getElem?_write hc hlen]
    by_cases hhead : Covers c i
    · simp [hhead]
    · rw [if_neg hhead, countP_cons_of_neg (by simpa using hhead)]

lemma writeAll_perm {data : List α} {copies : List (Nat × List α)} (hperm : copies.Perm (layout 0 blocks))
    (hlen : data.length = blocks.flatten.length) : writeAll data copies = blocks.flatten := by
  apply ext_getElem?
  intro i
  have hslice : ∀ c ∈ copies, Slice blocks.flatten c := fun c hc =>
    slice_of_mem_layout (nil_append _).symm (hperm.mem_iff.mp hc)
  rw [getElem?_writeAll hslice hlen]
  rcases Nat.lt_or_ge i blocks.flatten.length with hlt | hge
  · have hone : copies.countP (fun c => Covers c i) = 1 := by
      rw [hperm.countP_eq, countP_covers, if_pos (by omega)]
    rw [hone, if_pos Nat.one_pos]
  · rw [getElem?_eq_none hge, getElem?_eq_none (hlen ▸ hge)]
    simp

end Slices
