import Mathlib.Data.List.Nodup

/-!
# Rows by their keys

A table of which only the rows of one key are read or changed at a time, and lists in which no two rows have one key.
-/

abbrev KeyedRows (κ ρ : Type*) := κ → List ρ

namespace KeyedRows

variable {κ ρ : Type*} [DecidableEq κ] (t : KeyedRows κ ρ) (key : κ)

lemma find?_of_nodup {id : ρ → κ} {rows : List ρ} (h : (rows.map id).Nodup) {row : ρ} (hrow : row ∈ rows) :
    rows.find? (fun r => id r = id row) = some row := by
  cases hfind : rows.find? fun r => id r = id row with
  | none => simpa using List.find?_eq_none.mp hfind row hrow
  | some r =>
    have hid : id r = id row := by simpa using List.find?_some hfind
    rw [List.inj_on_of_nodup_map h (List.mem_of_find?_eq_some hfind) hrow hid]

def insert (row : ρ) : KeyedRows κ ρ :=
  Function.update t key (t key ++ [row])

variable (condition : ρ → Bool) (change : ρ → ρ)

def update : KeyedRows κ ρ :=
  Function.update t key ((t key).map fun row => if condition row then change row else row)

def remove : KeyedRows κ ρ :=
  Function.update t key ((t key).filter fun row => !condition row)

variable {t key} {other : κ}

@[simp]
lemma insert_self (row : ρ) : t.insert key row key = t key ++ [row] :=
  Function.update_self _ _ _

@[simp]
lemma update_self :
    t.update key condition change key = (t key).map fun row => if condition row then change row else row :=
  Function.update_self _ _ _

variable {condition : ρ → Bool}

@[simp]
lemma remove_self : t.remove key condition key = (t key).filter fun row => !condition row :=
  Function.update_self _ _ _

lemma insert_of_ne (h : other ≠ key) {row : ρ} : t.insert key row other = t other :=
  Function.update_of_ne h _ _

lemma update_of_ne (h : other ≠ key) (condition : ρ → Bool) (change : ρ → ρ) :
    t.update key condition change other = t other :=
  Function.update_of_ne h _ _

lemma remove_of_ne (h : other ≠ key) : t.remove key condition other = t other :=
  Function.update_of_ne h _ _

end KeyedRows
