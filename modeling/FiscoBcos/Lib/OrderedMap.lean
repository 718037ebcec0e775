import Mathlib.Data.List.Nodup
import Mathlib.Data.List.Perm.Basic

/-!
# Ordered maps

A change of one key leaves the values of the other keys alone. In the list of the map the other pairs stay
where they are: the list is cut at the key.
-/

namespace OrderedMap

open List Std.ExtTreeMap Std

variable {α β : Type*} {cmp : α → α → Ordering}

lemma not_lt_self [ReflCmp cmp] {a : α} : cmp a a ≠ .lt := by
  rw [(ReflCmp.compare_self : cmp a a = .eq)]
  nofun

variable [TransCmp cmp] [LawfulEqCmp cmp]
variable (m : ExtTreeMap α β cmp) (k : α) (v : β)

section

variable {m k v} {k' : α}

lemma getElem?_insert_of_ne (h : k ≠ k') : (m.insert k v)[k']? = m[k']? := by
  rw [ExtTreeMap.getElem?_insert, if_neg fun heq => h (LawfulEqCmp.compare_eq_iff_eq.mp heq)]

lemma getElem?_modify_of_ne {f : β → β} (h : k ≠ k') : (m.modify k f)[k']? = m[k']? := by
  rw [ExtTreeMap.getElem?_modify, if_neg fun heq => h (LawfulEqCmp.compare_eq_iff_eq.mp heq)]

end

lemma mem_toList_insert {p : α × β} : p ∈ (m.insert k v).toList ↔ p = (k, v) ∨ p ∈ m.toList ∧ p.1 ≠ k := by
  obtain ⟨k', v'⟩ := p
  rw [ExtTreeMap.mem_toList_iff_getElem?_eq_some, ExtTreeMap.mem_toList_iff_getElem?_eq_some,
    ExtTreeMap.getElem?_insert, Prod.mk.injEq]
  by_cases hk : k' = k
  · subst hk
    rw [(ReflCmp.compare_self : cmp k' k' = .eq), if_pos rfl]
    simp [eq_comm]
  have hne : cmp k k' ≠ .eq := by
    rw [ne_eq, LawfulEqCmp.compare_eq_iff_eq]
    exact Ne.symm hk
  simp [hk, hne]

lemma nodup_toList : m.toList.Nodup := by
  apply distinct_keys_toList.imp
  rintro a b hab rfl
  exact hab ReflCmp.compare_self

lemma toList_insert_perm [DecidableEq α] : (m.insert k v).toList.Perm ((k, v) :: m.toList.filter fun p => p.1 ≠ k) := by
  rw [perm_ext_iff_of_nodup (nodup_toList _)]
  · intro p
    rw [mem_toList_insert, mem_cons, mem_filter, decide_eq_true_eq]
  · rw [nodup_cons]
    refine ⟨fun hmem => ?_, (nodup_toList m).filter _⟩
    exact of_decide_eq_true (mem_filter.mp hmem).2 rfl

variable {m k} in
lemma toList_perm [DecidableEq α] {old : β} (h : m[k]? = some old) :
    m.toList.Perm ((k, old) :: m.toList.filter fun p => p.1 ≠ k) := by
  have hinsert : m.insert k old = m := by
    apply ExtTreeMap.ext_getElem?
    intro k'
    rw [ExtTreeMap.getElem?_insert]
    split
    · next heq =>
      rw [← LawfulEqCmp.compare_eq_iff_eq.mp heq, h]
    · rfl
  have hperm := toList_insert_perm m k old
  rwa [hinsert] at hperm

lemma toList_insert : (m.insert k v).toList =
    (m.toList.filter fun p => cmp p.1 k = .lt) ++ (k, v) :: m.toList.filter fun p => cmp k p.1 = .lt := by
  have hbefore {p : α × β} (hp : p ∈ m.toList.filter fun p => cmp p.1 k = .lt) : cmp p.1 k = .lt :=
    of_decide_eq_true (mem_filter.mp hp).2
  have hafter {p : α × β} (hp : p ∈ m.toList.filter fun p => cmp k p.1 = .lt) : cmp k p.1 = .lt :=
    of_decide_eq_true (mem_filter.mp hp).2
  have hordered : ((m.toList.filter fun p => cmp p.1 k = .lt) ++
      (k, v) :: m.toList.filter fun p => cmp k p.1 = .lt).Pairwise fun a b => cmp a.1 b.1 = .lt := by
    rw [pairwise_append, pairwise_cons]
    refine ⟨ordered_keys_toList.filter _,
      ⟨fun b hb => hafter hb, ordered_keys_toList.filter _⟩, fun a ha b hb => ?_⟩
    cases mem_cons.mp hb with
    | inl heq =>
      rw [heq]
      exact hbefore ha
    | inr hb => exact TransCmp.lt_trans (hbefore ha) (hafter hb)
  have hnodup := hordered.imp (S := fun a b => a ≠ b) fun {a b} hab heq => by
    exact not_lt_self (heq ▸ hab)
  refine List.Perm.eq_of_pairwise (fun a b _ _ hab hba => ?_) ordered_keys_toList hordered ?_
  · exact absurd (TransCmp.lt_trans hab hba) not_lt_self
  rw [perm_ext_iff_of_nodup (nodup_toList _) hnodup]
  intro p
  rw [mem_toList_insert, mem_append, mem_cons, mem_filter, mem_filter, decide_eq_true_eq, decide_eq_true_eq]
  cases h : cmp p.1 k with
  | lt =>
    have hne : p.1 ≠ k := fun heq => not_lt_self (heq ▸ h)
    have hnot : p ≠ (k, v) := fun heq => hne (congrArg Prod.fst heq)
    have hgt : cmp k p.1 ≠ .lt := fun hlt => not_lt_self (TransCmp.lt_trans hlt h)
    simp [hne, hnot, hgt]
  | eq =>
    have heq := LawfulEqCmp.compare_eq_iff_eq.mp h
    have hself : cmp k k ≠ .lt := not_lt_self
    simp [heq, hself]
  | gt =>
    have hlt : cmp k p.1 = .lt := OrientedCmp.lt_of_gt h
    have hne : p.1 ≠ k := fun heq => not_lt_self (heq ▸ hlt)
    have hnot : p ≠ (k, v) := fun heq => hne (congrArg Prod.fst heq)
    simp [hne, hnot, hlt]

end OrderedMap
