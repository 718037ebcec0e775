import FiscoBcos.Storage.SharedEntries
import FiscoBcos.Storage.TableHash

/-!
# The counters the hashed bytes are placed by

`dump` places the rows by the counters that `setField` keeps up and `copyFrom` copies.
-/

namespace FiscoBcos

open List Machine Slices

/-- What a row shows has its counter right. -/
def Sized (e : EntryMembers × FieldMap) : Prop :=
  e.1.capacityOfHashField = fieldBytes (e.2.toList.filter fun f => isHashField f.1)

namespace EntryStore

variable {n : Nat} (s : EntryStore n) (r : Fin n) (rows : List (Fin n)) (startOffset : Nat)

def hashFields : List (Str × Str) :=
  (s.fields (s.data r)).toList.filter fun f => isHashField f.1

/-- The texts copied for a row; the status is cut to a `char`. -/
def pieces : List Str :=
  (s.hashFields r).flatMap (fun f => [f.1, f.2]) ++ [[Char.ofNat ((s.members r).status % 256).toNat]]

def nextOffset (offset : Nat) : Nat :=
  (offset + (s.members r).capacityOfHashField + 1).toNat

def genDataOffset : List Nat :=
  rows.scanl (fun offset r => s.nextOffset r offset) startOffset

def genDataCopies : List (Nat × Str) :=
  (rows.zip (s.genDataOffset rows startOffset)).flatMap fun e => layout e.2 (s.pieces e.1)

def live : List (Fin n) :=
  rows.filter fun r => !(s.members r).deleted

def allSize : Nat :=
  ((s.live rows).map fun r => (s.members r).capacityOfHashField + 1).sum.toNat

/-- The live rows in an order of the comparison. -/
structure SortedRows (info : TableInfo) (rows sorted : List (Fin n)) : Prop where
  perm : sorted.Perm (s.live rows)
  sorted : sorted.Pairwise fun a b => EntryLessNoLock.less info
    { id := (s.members b).id, fields := (s.shows b).2 } { id := (s.members a).id, fields := (s.shows a).2 } = false

variable {s r}

lemma sized_call (h : s.Counted) (hs : ∀ r, Sized (s.shows r)) (c : Fin n × EntryCall n) :
    Sized ((s.call c).shows r) := by
  by_cases hr : r = c.1
  · subst hr
    obtain ⟨a, c⟩ := c
    have hshows := (h.checkRef a).2.1 a
    cases c with
    | copyFrom entry =>
      simp only [call, copyFrom]
      split
      · exact hs a
      · simpa [shows, moveTo, setMembers] using hs entry
    | setField key value =>
      have ha := hs a
      rw [← hshows] at ha
      simp only [Sized, shows] at ha
      simp [Sized, shows, call, setField, setMembers, fieldBytes_insert, ha]
    | setStatus =>
      have ha := hs a
      rw [← hshows] at ha
      simpa [Sized, shows, call, setMembers] using ha
    | _ => simpa [Sized, shows, call, setMembers] using hs a
  · rw [h.shows_call hr]
    exact hs r

lemma sized_run (calls : List (Fin n × EntryCall n)) (r : Fin n) : Sized ((run call {} calls).shows r) := by
  have h : (run call {} calls).Counted ∧ ∀ r : Fin n, Sized ((run call {} calls).shows r) := by
    apply run_induction (fun s : EntryStore n => s.Counted ∧ ∀ r, Sized (s.shows r))
    · exact fun s c h => ⟨h.1.call c, fun r => sized_call h.1 h.2 c⟩
    · exact ⟨counted_run [], fun r => rfl⟩
  exact h.2 r

lemma sum_natCast {ρ : Type*} (f : ρ → Nat) (l : List ρ) :
    (l.map fun r => (f r : Int)).sum = ((l.map f).sum : Nat) := by
  induction l with
  | nil => rfl
  | cons r l ih => simp [ih]

lemma length_pieces (h : Sized (s.shows r)) :
    ((s.pieces r).flatten.length : Int) = (s.members r).capacityOfHashField + 1 := by
  rw [show (s.members r).capacityOfHashField = fieldBytes (s.hashFields r) from h]
  rw [pieces, flatten_append, length_append, length_fields, fieldBytes, sum_natCast]
  rfl

/-- The counters are right after every sequence of calls. Every byte of the buffer is then copied once, and it is the
rows one after another, whatever the order of the copies. -/
theorem dump_fills_once (calls : List (Fin n × EntryCall n)) : let s := run call {} calls
    (∀ r, (s.members r).capacityOfHashField = fieldBytes (s.hashFields r)) ∧
      ∀ info dirty new ds ns copies, s.SortedRows info dirty ds → s.SortedRows info new ns →
        copies.Perm (s.genDataCopies ds 0 ++ s.genDataCopies ns ((s.genDataOffset ds 0).getD ds.length 0)) →
        let bytes := (ds ++ ns).flatMap fun r => (s.pieces r).flatten
        writeAll (replicate (s.allSize (dirty ++ new)) (Char.ofNat 0)) copies = bytes ∧
          ∀ i, copies.countP (fun c => Covers c i) = if i < bytes.length then 1 else 0 := by
  intro s
  have hs : ∀ r, Sized (s.shows r) := sized_run calls
  refine ⟨hs, fun info dirty new ds ns copies hds hns hperm => ?_⟩
  have hnext : ∀ o r, s.nextOffset r o = o + (s.pieces r).flatten.length := by
    intro o r
    have hlen := length_pieces (hs r)
    unfold nextOffset
    omega
  unfold genDataCopies genDataOffset at hperm
  rw [getD_scanl hnext, flatMap_layout hnext, flatMap_layout hnext, ← layout_append, ← flatMap_append] at hperm
  have hbytes : ((ds ++ ns).flatMap s.pieces).flatten = (ds ++ ns).flatMap fun r => (s.pieces r).flatten := by
    rw [flatMap_def, flatten_flatten, List.map_map]
    rfl
  have hsize : s.allSize (dirty ++ new) = ((ds ++ ns).flatMap s.pieces).flatten.length := by
    have hlive : (ds ++ ns).Perm (s.live (dirty ++ new)) := by
      rw [live, filter_append]
      exact hds.perm.append hns.perm
    rw [allSize, ← (hlive.map _).sum_eq, hbytes, length_flatMap]
    simp only [← length_pieces (hs _), sum_natCast, Int.toNat_natCast]
  intro bytes
  refine ⟨?_, fun i => ?_⟩
  · rw [writeAll_perm hperm (by rw [length_replicate, hsize]), hbytes]
  · simp only [hperm.countP_eq, countP_covers, hbytes, Nat.zero_le, true_and, Nat.zero_add, bytes]

def sampleCalls : List (Fin 2 × EntryCall 2) :=
  [(0, .setField "k".toList "1".toList), (1, .copyFrom 0), (1, .setField "k".toList "22".toList), (0, .setStatus 1)]

/-- The second row shares its fields with the first until it is written to. -/
theorem dump_fills_once_two : let s := run call {} sampleCalls
    writeAll (replicate (s.allSize ([1] ++ [0])) (Char.ofNat 0)) (s.genDataCopies [1] 0 ++ s.genDataCopies [0] 4) =
      "k22\x00k1\x01".toList :=
  ((dump_fills_once sampleCalls).2 MemoryTable2.sampleInfo [1] [0] [1] [0] _ ⟨by decide +kernel, pairwise_singleton _ _⟩
    ⟨by decide +kernel, pairwise_singleton _ _⟩ (Perm.refl _)).1.trans (by decide +kernel)

end EntryStore

end FiscoBcos
