import Mathlib.Algebra.BigOperators.Group.Finset.Piecewise
import Mathlib.Algebra.BigOperators.Group.List.Basic
import Mathlib.Algebra.Ring.Int.Defs
import FiscoBcos.Lib.Run
import FiscoBcos.Storage.Table

/-!
# Rows that share their fields

`Entry` of `libstorage/Table.cpp`: `copyFrom` shares the block of fields of the other row, and a call that writes to a
shared block first takes a copy of its own.
-/

namespace FiscoBcos

open Finset Function Machine

section

def fieldBytes (fields : List (Str × Str)) : Int :=
  (fields.map fun f => ((f.1.length + f.2.length : Nat) : Int)).sum

def updatedCapacity (fields : FieldMap) (key value : Str) : Int :=
  match fields[key]? with
  | some old => value.length - old.length
  | none => key.length + value.length

variable (fields : FieldMap) (key value : Str)

lemma fieldBytes_perm {fs gs : List (Str × Str)} (h : fs.Perm gs) : fieldBytes fs = fieldBytes gs :=
  (h.map _).sum_eq

lemma fieldBytes_cons (f : Str × Str) (fs : List (Str × Str)) :
    fieldBytes (f :: fs) = f.1.length + f.2.length + fieldBytes fs := by
  simp [fieldBytes]

lemma fieldBytes_insert (p : Str → Bool) : fieldBytes ((fields.insert key value).toList.filter fun f => p f.1) =
      fieldBytes (fields.toList.filter fun f => p f.1) + if p key then updatedCapacity fields key value else 0 := by
  rw [fieldBytes_perm ((OrderedMap.toList_insert_perm fields key value).filter _)]
  unfold updatedCapacity
  cases hold : fields[key]? with
  | some =>
    rw [fieldBytes_perm ((OrderedMap.toList_perm hold).filter fun f => p f.1)]
    cases hp : p key with
    | true =>
      rw [List.filter_cons_of_pos (by simpa using hp), List.filter_cons_of_pos (by simpa using hp),
        fieldBytes_cons, fieldBytes_cons, if_pos rfl]
      dsimp only
      omega
    | false =>
      rw [List.filter_cons_of_neg (by simpa using hp), List.filter_cons_of_neg (by simpa using hp)]
      simp
  | none =>
    have hothers : (fields.toList.filter fun f => f.1 ≠ key) = fields.toList := by
      rw [List.filter_eq_self]
      rintro ⟨k, v⟩ hf
      apply decide_eq_true
      rintro rfl
      rw [Std.ExtTreeMap.mem_toList_iff_getElem?_eq_some.mp hf] at hold
      cases hold
    rw [hothers]
    cases hp : p key with
    | true =>
      rw [List.filter_cons_of_pos (by simpa using hp), fieldBytes_cons, if_pos rfl]
      dsimp only
      omega
    | false =>
      rw [List.filter_cons_of_neg (by simpa using hp)]
      simp

end

structure EntryMembers where
  id : Nat := 0
  status : Int := 0
  tempIndex : Nat := 0
  num : Nat := 0
  dirty : Bool := false
  force : Bool := false
  deleted : Bool := false
  capacity : Int := 0
  capacityOfHashField : Int := 0

/-- Rows, the blocks `data` they point to, and what is in a block. -/
structure EntryStore (n : Nat) where
  members : Fin n → EntryMembers := fun _ => {}
  data : Fin n → Nat := Fin.val
  refCount : Nat → Int := fun k => if k < n then 1 else 0
  fields : Nat → FieldMap := fun _ => ∅
  next : Nat := n

inductive EntryCall (n : Nat) where
  | copyFrom (entry : Fin n)
  | setField (key value : Str)
  | setID (id : Nat)
  | setNum (num : Nat)
  | setStatus (status : Int)
  | setForce (force : Bool)
  | setDeleted (deleted : Bool)

namespace EntryStore

variable {n : Nat} (s : EntryStore n) (a : Fin n)

def shows : EntryMembers × FieldMap :=
  (s.members a, s.fields (s.data a))

def setMembers (f : EntryMembers → EntryMembers) : EntryStore n :=
  { s with members := update s.members a (f (s.members a)) }

def moveTo (block : Nat) (refCount : Int) : EntryStore n :=
  { s with
    data := update s.data a block
    refCount := update (update s.refCount (s.data a) (s.refCount (s.data a) - 1)) block refCount }

def checkRef : EntryStore n :=
  if 1 < s.refCount (s.data a) then
    { s.moveTo a s.next 1 with
      fields := update s.fields s.next (s.fields (s.data a))
      next := s.next + 1 }
  else s

def copyFrom (entry : Fin n) : EntryStore n :=
  -- the lock of a block both rows share cannot be taken twice
  if s.data a = s.data entry then s
  else (s.setMembers a fun _ => s.members entry).moveTo a (s.data entry) (s.refCount (s.data entry) + 1)

def setField (key value : Str) : EntryStore n :=
  let s := s.checkRef a
  let fields := s.fields (s.data a)
  let added := updatedCapacity fields key value
  { s with fields := update s.fields (s.data a) (fields.insert key value) }.setMembers a fun m => { m with
    capacity := m.capacity + added
    capacityOfHashField := m.capacityOfHashField + if isHashField key then added else 0
    dirty := true }

def call (s : EntryStore n) : Fin n × EntryCall n → EntryStore n
  | (a, .copyFrom entry) => s.copyFrom a entry
  | (a, .setField key value) => s.setField a key value
  | (a, .setID id) => s.setMembers a fun m => { m with id := id, dirty := true }
  | (a, .setNum num) => s.setMembers a fun m => { m with num := num, dirty := true }
  | (a, .setStatus status) => (s.checkRef a).setMembers a fun m => { m with status := status, dirty := true }
  | (a, .setForce force) => s.setMembers a fun m => { m with force := force }
  | (a, .setDeleted deleted) => s.setMembers a fun m => { m with deleted := deleted }

/-- A block counts the rows that point to it. -/
structure Counted : Prop where
  refCount : ∀ k, s.refCount k = #{r | s.data r = k}
  next : ∀ r, s.data r < s.next

variable {s a} {r : Fin n}

lemma Counted.moveTo {k m : Nat} {c : Int} (h : s.Counted) (hne : s.data a ≠ k) (hc : c = s.refCount k + 1)
    (hk : k < m) (hm : s.next ≤ m) : { s.moveTo a k c with next := m }.Counted := by
  refine ⟨fun j => ?_, fun r => ?_⟩
  · have hrest : ∑ r ∈ univ.erase a, (if (if r = a then k else s.data r) = j then 1 else 0) =
        ∑ r ∈ univ.erase a, if s.data r = j then 1 else 0 := by
      apply sum_congr rfl
      intro r hr
      rw [if_neg (ne_of_mem_erase hr)]
    have hj := h.refCount j
    rw [card_filter, ← add_sum_erase _ _ (mem_univ a)] at hj ⊢
    simp only [EntryStore.moveTo, update_apply, hrest]
    split_ifs at hj ⊢ <;> subst_vars <;> omega
  · have hr := h.next r
    simp only [EntryStore.moveTo, update_apply]
    split <;> omega

lemma Counted.checkRef (h : s.Counted) (a : Fin n) : (s.checkRef a).Counted ∧
    (∀ r, (s.checkRef a).shows r = s.shows r) ∧ ∀ r ≠ a, (s.checkRef a).data r ≠ (s.checkRef a).data a := by
  have hne := fun r => (h.next r).ne
  unfold EntryStore.checkRef
  split
  · have hzero : s.refCount s.next = 0 := by simp [h.refCount, hne]
    have hcount := h.moveTo (hne a) (by rw [hzero]) (Nat.lt_succ_self _) (Nat.le_succ _)
    refine ⟨⟨hcount.refCount, hcount.next⟩, fun r => ?_, fun r hr => ?_⟩
    · simp only [shows, EntryStore.moveTo, update_apply]
      grind
    · simpa [EntryStore.moveTo, hr] using hne r
  · rename_i hcount
    refine ⟨h, fun r => rfl, fun r hr heq => ?_⟩
    have hcard : 1 < #{r' | s.data r' = s.data a} := one_lt_card.mpr ⟨r, by simp [heq], a, by simp, hr⟩
    rw [h.refCount] at hcount
    omega

lemma Counted.call (h : s.Counted) (c : Fin n × EntryCall n) : (s.call c).Counted := by
  obtain ⟨a, c⟩ := c
  cases c with
  | copyFrom entry =>
    simp only [EntryStore.call, EntryStore.copyFrom]
    split
    · exact h
    · rename_i hne
      have hcount := h.moveTo hne rfl (h.next entry) le_rfl
      exact ⟨hcount.refCount, hcount.next⟩
  | setField | setStatus =>
    obtain ⟨hcount, -⟩ := h.checkRef a
    exact ⟨hcount.refCount, hcount.next⟩
  | _ => exact ⟨h.refCount, h.next⟩

lemma Counted.shows_call {c : Fin n × EntryCall n} (h : s.Counted) (hr : r ≠ c.1) : (s.call c).shows r = s.shows r := by
  obtain ⟨a, c⟩ := c
  obtain ⟨-, hshows, hdata⟩ := h.checkRef a
  cases c with
  | copyFrom entry =>
    simp only [EntryStore.call, EntryStore.copyFrom]
    split
    · rfl
    · simp [shows, EntryStore.moveTo, setMembers, hr]
  | setField key value =>
    rw [← hshows]
    simp [EntryStore.call, setField, setMembers, shows, hr, hdata r hr]
  | setStatus =>
    rw [← hshows]
    simp [EntryStore.call, setMembers, shows, hr]
  | _ => simp [EntryStore.call, setMembers, shows, hr]

lemma shows_copyFrom {entry : Fin n} : (s.copyFrom a entry).shows a = (s.copyFrom a entry).shows entry ↔
    (s.data a = s.data entry → s.members a = s.members entry) := by
  unfold copyFrom
  split
  · rename_i heq
    simp [shows, heq]
  · rename_i hne
    have hentry : entry ≠ a := by
      rintro rfl
      exact hne rfl
    simp [shows, moveTo, setMembers, hentry, hne]

lemma counted_run (calls : List (Fin n × EntryCall n)) : (run call {} calls).Counted := by
  apply run_induction Counted fun s c h => h.call c
  refine ⟨fun k => ?_, fun r => r.isLt⟩
  by_cases hk : k < n
  · rw [card_eq_one.mpr ⟨⟨k, hk⟩, by ext; simp [Fin.ext_iff]⟩]
    simp [hk]
  · simp [hk, fun r : Fin n => (r.isLt.trans_le (not_lt.mp hk)).ne]

theorem copyFrom_shows (calls later : List (Fin n × EntryCall n)) (a b r : Fin n) (hlater : ∀ c ∈ later, r ≠ c.1) :
    let s := run call {} calls
    let t := s.copyFrom a b
    (t.shows a = t.shows b ↔ (s.data a = s.data b → s.members a = s.members b)) ∧
      (run call t later).shows r = t.shows r := by
  intro s t
  have hcounted : t.Counted := (counted_run calls).call (a, .copyFrom b)
  refine ⟨shows_copyFrom, ?_⟩
  clear_value t
  induction later generalizing t with
  | nil => rfl
  | cons c later ih =>
    rw [List.forall_mem_cons] at hlater
    exact (ih hlater.2 _ (hcounted.call c)).trans (hcounted.shows_call hlater.1)

theorem copyFrom_shows_two :
    let t := (run call {} [(1, .setField ['k'] ['v'])] : EntryStore 2).copyFrom 0 1
    t.shows 0 = t.shows 1 ∧ (run call t [(1, .setField ['k'] ['w'])]).shows 0 = t.shows 0 :=
  have h := copyFrom_shows _ [(1, .setField ['k'] ['w'])] 0 1 0 (by decide)
  ⟨h.1.mpr fun hdata => absurd hdata (by decide), h.2⟩

/-- A row copied a second time keeps the id of the first copy. -/
theorem not_copyFrom_shows :
    let t := (run call {} [(0, .copyFrom 1), (1, .setID 5)] : EntryStore 2).copyFrom 0 1
    (t.members 0).id = 0 ∧ (t.members 1).id = 5 := by
  decide

end EntryStore

end FiscoBcos
