import Mathlib.Logic.Function.Iterate
import Mathlib.Logic.Relation

/-!
# Tables with a change log

Every change of a row notes what takes it back. Taking back an insert leaves a slot marked as deleted behind.
-/

namespace Journal

open List Function

section

variable {ρ : Type*}

structure Slot (ρ : Type*) where
  row : ρ
  deleted : Bool := false
deriving DecidableEq

inductive Change (ρ : Type*) where
  | insert (index : ℕ)
  | update (old : List (ℕ × ρ))
deriving DecidableEq

open Slot

def rows (t : List (Slot ρ)) : List ρ :=
  (t.filter fun slot => !slot.deleted).map row

def Slot.update (p : ρ → Bool) (f : ρ → ρ) (slot : Slot ρ) : Slot ρ :=
  if !slot.deleted && p slot.row then { slot with row := f slot.row } else slot

def replaced (p : ρ → Bool) : ℕ → List (Slot ρ) → List (ℕ × ρ)
  | _, [] => []
  | i, slot :: t =>
    if !slot.deleted && p slot.row then (i, slot.row) :: replaced p (i + 1) t
    else replaced p (i + 1) t

def restore (t : List (Slot ρ)) (record : ℕ × ρ) : List (Slot ρ) :=
  t.modify record.1 fun slot => { slot with row := record.2 }

def revert (t : List (Slot ρ)) : Change ρ → List (Slot ρ)
  | .insert index => t.modify index fun slot => { slot with deleted := true }
  | .update old => old.foldl restore t

lemma rows_append (t u : List (Slot ρ)) : rows (t ++ u) = rows t ++ rows u := by
  simp [rows]

lemma rows_map_update (p : ρ → Bool) (f : ρ → ρ) (t : List (Slot ρ)) :
    rows (t.map (Slot.update p f)) = (rows t).map fun row => if p row then f row else row := by
  induction t with
  | nil => rfl
  | cons slot =>
    obtain ⟨row, deleted⟩ := slot
    cases deleted <;> cases hp : p row <;> simp_all [rows, Slot.update]

lemma modify_length_append {α : Type*} (f : α → α) (t : List α) (a : α) (u : List α) :
    (t ++ a :: u).modify t.length f = t ++ f a :: u :=
  modifyTailIdx_add (modifyHead f) 0 t (a :: u)

def Extends (t u : List (Slot ρ)) : Prop :=
  ∃ dead : List (Slot ρ), (∀ slot ∈ dead, slot.deleted = true) ∧ u = t ++ dead

namespace Extends

variable {t u : List (Slot ρ)}

lemma refl (t : List (Slot ρ)) : Extends t t :=
  ⟨[], by simp, by simp⟩

lemma rows_eq (h : Extends t u) : rows u = rows t := by
  obtain ⟨dead, hdead, rfl⟩ := h
  have hnone : rows dead = [] := by
    simp only [rows, map_eq_nil_iff, filter_eq_nil_iff]
    intro slot hslot
    simp [hdead slot hslot]
  rw [rows_append, hnone, append_nil]

lemma revert_insert {row : ρ} (h : Extends (t ++ [⟨row, false⟩]) u) : Extends t (revert u (.insert t.length)) := by
  obtain ⟨dead, hdead, rfl⟩ := h
  refine ⟨⟨row, true⟩ :: dead, ?_, ?_⟩
  · simpa using hdead
  · rw [revert, append_assoc]
    exact modify_length_append _ _ _ _

lemma foldl_restore (p : ρ → Bool) (f : ρ → ρ) (done t dead : List (Slot ρ)) :
    (replaced p done.length t).foldl restore (done ++ (t.map (update p f) ++ dead)) = done ++ (t ++ dead) := by
  induction t generalizing done with
  | nil => rfl
  | cons slot t ih =>
    have hnext := ih (done ++ [slot])
    rw [length_append, length_singleton] at hnext
    simp only [append_assoc, singleton_append] at hnext
    simp only [map_cons, cons_append, replaced]
    split
    case isTrue h =>
      have hslot : restore (done ++ update p f slot :: (t.map (update p f) ++ dead))
          (done.length, slot.row) = done ++ slot :: (t.map (update p f) ++ dead) := by
        rw [restore, modify_length_append, Slot.update, if_pos h]
      rw [foldl_cons, hslot, hnext]
    case isFalse h =>
      rw [Slot.update, if_neg h, hnext]

lemma revert_update {p : ρ → Bool} {f : ρ → ρ} (h : Extends (t.map (update p f)) u) :
    Extends t (revert u (.update (replaced p 0 t))) := by
  obtain ⟨dead, hdead, rfl⟩ := h
  exact ⟨dead, hdead, foldl_restore p f [] t dead⟩

end Extends

end

section

variable {κ : Type*} [DecidableEq κ] {ρ : κ → Type*}

structure Store (κ : Type*) (ρ : κ → Type*) where
  tables : ∀ k, List (Slot (ρ k))
  log : List (Σ k, Change (ρ k))

namespace Store

variable (s : Store κ ρ)

def rows (k : κ) : List (ρ k) :=
  Journal.rows (s.tables k)

def insert (k : κ) (row : ρ k) : Store κ ρ where
  tables := update s.tables k (s.tables k ++ [⟨row, false⟩])
  log := ⟨k, .insert (s.tables k).length⟩ :: s.log

def update (k : κ) (p : ρ k → Bool) (f : ρ k → ρ k) : Store κ ρ where
  tables := Function.update s.tables k ((s.tables k).map (Slot.update p f))
  log := ⟨k, .update (replaced p 0 (s.tables k))⟩ :: s.log

def savepoint : ℕ :=
  s.log.length

def undo : Store κ ρ :=
  match s.log with
  | [] => s
  | ⟨k, change⟩ :: log =>
    { tables := Function.update s.tables k (revert (s.tables k) change), log := log }

def rollback (savepoint : ℕ) : Store κ ρ :=
  undo^[s.log.length - savepoint] s

def commit : Store κ ρ where
  tables k := (s.rows k).map fun row => ⟨row, false⟩
  log := []

lemma rows_insert_self (k : κ) (row : ρ k) : (s.insert k row).rows k = s.rows k ++ [row] := by
  simp [rows, insert, Journal.rows]

variable {k : κ} {t : Store κ ρ}

lemma rows_insert_of_ne {l : κ} (h : l ≠ k) (row : ρ k) : (s.insert k row).rows l = s.rows l := by
  simp [rows, insert, update_of_ne h]

lemma rows_update_self (k : κ) (p : ρ k → Bool) (f : ρ k → ρ k) :
    (s.update k p f).rows k = (s.rows k).map fun row => if p row then f row else row := by
  simp [rows, update, rows_map_update]

lemma rows_update_of_ne {l : κ} (h : l ≠ k) {p : ρ k → Bool} {f : ρ k → ρ k} : (s.update k p f).rows l = s.rows l := by
  simp [rows, update, update_of_ne h]

omit [DecidableEq κ] in
lemma rows_commit (k : κ) : s.commit.rows k = s.rows k := by
  simp [rows, commit, Journal.rows, filter_map, comp_def]

inductive Write (s : Store κ ρ) : Store κ ρ → Prop where
  | insert (k : κ) (row : ρ k) : Write s (s.insert k row)
  | update (k : κ) (p : ρ k → Bool) (f : ρ k → ρ k) : Write s (s.update k p f)

structure Restores (s t : Store κ ρ) : Prop where
  tables : ∀ k, Extends (s.tables k) (t.tables k)
  log : t.log = s.log

variable {s}

omit [DecidableEq κ] in
lemma Restores.rows_eq (h : Restores s t) (k : κ) : t.rows k = s.rows k :=
  (h.tables k).rows_eq

lemma Write.log_length (h : Write s t) : t.log.length = s.log.length + 1 := by
  cases h <;> rfl

lemma undo_of_log {change : Change (ρ k)} {log : List (Σ k, Change (ρ k))} (h : s.log = ⟨k, change⟩ :: log) :
    s.undo = { tables := Function.update s.tables k (revert (s.tables k) change), log := log } := by
  unfold undo
  rw [h]

lemma Restores.undo {u : Store κ ρ} (hw : Write s t) (h : Restores t u) : Restores s u.undo := by
  -- the other tables are those of `s` already; the written one is restored by its change
  cases hw with
  | insert k =>
    rw [undo_of_log h.log]
    refine ⟨fun l => ?_, rfl⟩
    have hl := h.tables l
    by_cases hlk : l = k
    · subst hlk
      simp only [insert, update_self] at hl ⊢
      exact hl.revert_insert
    · simpa only [insert, update_of_ne hlk] using hl
  | update k =>
    rw [undo_of_log h.log]
    refine ⟨fun l => ?_, rfl⟩
    have hl := h.tables l
    by_cases hlk : l = k
    · subst hlk
      simp only [update, update_self] at hl ⊢
      exact hl.revert_update
    · simpa only [update, update_of_ne hlk] using hl

lemma log_le_of_writes (h : Relation.ReflTransGen Write s t) : s.log.length ≤ t.log.length := by
  induction h with
  | refl => exact Nat.le_refl _
  | tail _ hw =>
    rw [hw.log_length]
    omega

lemma Restores.iterate_undo {u : Store κ ρ} (h : Relation.ReflTransGen Write s t)
    (hu : Restores t u) : Restores s (Store.undo^[u.log.length - s.log.length] u) := by
  induction h generalizing u with
  | refl =>
    rw [hu.log, Nat.sub_self]
    exact hu
  | tail hs hw ih =>
    have hundo := hu.undo hw
    have hlen := hw.log_length
    have hle := log_le_of_writes hs
    have hsucc := ih hundo
    rw [hundo.log] at hsucc
    rw [hu.log, hlen, Nat.succ_sub hle, iterate_succ_apply]
    exact hsucc

lemma restores_rollback (h : Relation.ReflTransGen Write s t) : Restores s (t.rollback s.savepoint) :=
  Restores.iterate_undo h ⟨fun k => .refl (t.tables k), rfl⟩

end Store

end

end Journal
