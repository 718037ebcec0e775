import Mathlib.Data.List.Sort
import FiscoBcos.Storage.MemoryTableFactory2

/-!
# Rolling back

A row of a table is kept at a place: in `dirty` under its number, or among the new rows of its key. `Restored` says what a
table may look like after a rollback; such a table answers every query as the one of the savepoint.
-/

namespace FiscoBcos

open List Function MemoryTable2 Std.ExtTreeSet Machine Row OrderedMap

variable {c : Str × TableCall} {n : Nat} {e : Entry} (change : Change)

inductive Place where
  | stored (id : Nat)
  | inserted (key : Str) (index : Nat)
deriving DecidableEq

def placeOf (key : Str) (index id : Nat) : Place :=
  if id ≠ 0 then .stored id else .inserted key index

def Selected.place (key : Str) (s : Selected) : Place :=
  placeOf key s.tempIndex s.id

namespace MemoryTable2

def lookup (t : MemoryTable2) : Place → Option Row
  | .stored id => t.dirty[id]?
  | .inserted key index => (t.newRows key)[index]?

section

variable {t : MemoryTable2} {db : StateStorage} {key : Str} {index id : Nat} {f : Row → Row} {row : Row}
  {s : Selected} {mark : Bool} {p : Place}

lemma lookup_modifyEntry : (t.modifyEntry key index id f).lookup p =
    if p = placeOf key index id then (t.lookup p).map f else t.lookup p := by
  unfold modifyEntry placeOf
  by_cases hid : id ≠ 0
  · rw [if_pos hid, if_pos hid]
    cases p with
    | stored k =>
      change (t.dirty.modify id f)[k]? = _
      rw [Std.ExtTreeMap.getElem?_modify]
      simp only [Std.LawfulEqCmp.compare_eq_iff_eq, Place.stored.injEq, eq_comm (a := k), lookup]
      split
      case isTrue h => rw [h]
      case isFalse => rfl
    | inserted => simp [lookup, newRows]
  · rw [if_neg hid, if_neg hid]
    cases p with
    | stored => simp [lookup]
    | inserted k i =>
      simp only [lookup, newRows, Std.ExtTreeMap.getD_eq_getD_getElem?, Std.ExtTreeMap.getElem?_modify,
        Std.LawfulEqCmp.compare_eq_iff_eq, Place.inserted.injEq]
      by_cases hk : key = k
      · subst hk
        cases t.newEntries[key]? with
        | none => simp
        | some =>
          simp only [if_true, Option.map_some, Option.getD_some, getElem?_modify, true_and, eq_comm (a := i)]
          split <;> simp
      · simp [hk, Ne.symm hk]

lemma lookup_addNew : (t.addNew key row).lookup p =
    if p = .inserted key (t.newRows key).length then some row else t.lookup p := by
  cases p with
  | stored => simp [lookup, addNew]
  | inserted k i =>
    simp only [lookup, addNew, newRows, Std.ExtTreeMap.getD_insert, Std.LawfulEqCmp.compare_eq_iff_eq, Place.inserted.injEq]
    by_cases hk : key = k
    · subst hk
      simp
      rcases Nat.lt_trichotomy i (t.newEntries.getD key []).length with hi | hi | hi
      · rw [getElem?_append_left hi, if_neg (by omega)]
      · rw [hi, getElem?_concat_length, if_pos rfl]
      · rw [if_neg (by omega), getElem?_eq_none (by simp; omega), getElem?_eq_none (by omega)]
    · simp [hk, Ne.symm hk]

lemma lookup_load : (t.load mark key s).lookup p =
    if p = .stored s.id ∧ s.id ≠ 0 ∧ t.dirty[s.id]? = none then some s.toRow else t.lookup p := by
  unfold load
  by_cases h : s.id ≠ 0 ∧ t.dirty[s.id]? = none
  · rw [dif_pos h]
    cases mark <;> cases p <;>
      simp [h, lookup, newRows, Std.ExtTreeMap.getElem?_insert, eq_comm (a := s.id)]
  · rw [dif_neg h, if_neg fun hp => h hp.2]

lemma mem_updatedIds_load {k : Str} : n ∈ (t.load mark key s).updatedIds k ↔
    n ∈ t.updatedIds k ∨ mark = true ∧ k = key ∧ n = s.id ∧ s.id ≠ 0 ∧ t.dirty[s.id]? = none := by
  unfold load
  by_cases h : s.id ≠ 0 ∧ t.dirty[s.id]? = none
  · rw [dif_pos h]
    cases mark with
    | false => simp [updatedIds]
    | true =>
      simp only [updatedIds, if_true, Std.ExtTreeMap.getD_insert, Std.LawfulEqCmp.compare_eq_iff_eq, h, true_and, and_true]
      by_cases hk : key = k
      · subst hk
        simp [h.1, eq_comm (a := s.id), or_comm]
      · simp [hk, Ne.symm hk]
  · rw [dif_neg h]
    constructor
    · exact .inl
    · rintro (hn | ⟨-, -, -, hs⟩)
      · exact hn
      · exact absurd hs h

@[simp]
lemma updatedIds_modifyEntry : (t.modifyEntry key index id f).updatedIds = t.updatedIds := by
  unfold modifyEntry
  split <;> rfl

@[simp]
lemma info_modifyEntry : (t.modifyEntry key index id f).info = t.info := by
  unfold modifyEntry
  split <;> rfl

@[simp]
lemma info_load : (t.load mark key s).info = t.info := by
  unfold load
  split
  · split <;> rfl
  · rfl

end

variable {id : Nat}

section

variable {t : MemoryTable2} {db : StateStorage} {key : Str} {condition : Condition} {s : Selected}

/-- A row as the table has it at its place, or as the database has it if the table has it nowhere. -/
def Shows (db : StateStorage) (t : MemoryTable2) (key : Str) (s : Selected) : Prop :=
  t.lookup (s.place key) = some s.toRow ∨ s.id ≠ 0 ∧ t.dirty[s.id]? = none ∧ s.toEntry ∈ db.rows t.info.name key

lemma Shows.of_some {row : Row} (h : Shows db t key s) (hrow : t.lookup (s.place key) = some row) : row = s.toRow := by
  rcases h with h | ⟨hid, hnone, -⟩
  · exact Option.some.inj (hrow.symm.trans h)
  · rw [show s.place key = .stored s.id from if_pos hid] at hrow
    exact absurd (hnone.symm.trans hrow) (by simp)

lemma Shows.of_none (h : Shows db t key s) (hnone : t.lookup (s.place key) = none) :
    s.place key = .stored s.id ∧ s.toEntry ∈ db.rows t.info.name key := by
  rcases h with h | ⟨hid, -, hmem⟩
  · exact absurd (hnone.symm.trans h) (by simp)
  · exact ⟨if_pos hid, hmem⟩

lemma stored_ne_zero (h : t.dirty[id]? ≠ none) : id ≠ 0 := by
  rintro rfl
  exact h t.zero_dirty

lemma of_fromDB (he : e ∈ db.select t.info key condition) (hs : t.fromDB condition e = some s) :
    Shows db t key s ∧ condition.process s.toRow = true ∧ s.place key = .stored e.id := by
  obtain ⟨hmem, hprocess⟩ := mem_filter.mp he
  have hid := db.id_ne_zero _ _ e hmem
  unfold fromDB at hs
  split at hs
  case h_1 row hrow =>
    rw [Option.ite_none_right_eq_some] at hs
    obtain ⟨hp, hs⟩ := hs
    cases hs
    have hplace : placeOf key 0 e.id = .stored e.id := if_pos hid
    refine ⟨.inl ?_, hp, hplace⟩
    rw [Selected.place, hplace]
    exact hrow
  case h_2 hrow =>
    cases hs
    exact ⟨.inr ⟨hid, hrow, hmem⟩, hprocess, if_pos hid⟩

lemma of_fromUpdated (db : StateStorage) (key : Str) (hs : t.fromUpdated condition id = some s) :
    Shows db t key s ∧ condition.process s.toRow = true ∧ s.place key = .stored id := by
  unfold fromUpdated at hs
  split at hs
  case h_1 row hrow =>
    rw [Option.ite_none_right_eq_some] at hs
    obtain ⟨hp, hs⟩ := hs
    cases hs
    have hplace : placeOf key 0 id = .stored id := if_pos (stored_ne_zero (by rw [hrow]; simp))
    refine ⟨.inl ?_, hp, hplace⟩
    rw [Selected.place, hplace]
    exact hrow
  case h_2 => cases hs

lemma of_fromNew (db : StateStorage) {row : Row × Nat} (hrow : row ∈ (t.newRows key).zipIdx)
    (hs : fromNew condition row = some s) :
    Shows db t key s ∧ condition.process s.toRow = true ∧ s.place key = .inserted key row.2 := by
  unfold fromNew at hs
  rw [Option.ite_none_right_eq_some] at hs
  obtain ⟨hp, hs⟩ := hs
  cases hs
  exact ⟨.inl (mem_zipIdx_iff_getElem?.mp hrow), hp, rfl⟩

lemma of_mem_matching (hs : s ∈ t.matching db key condition) : Shows db t key s ∧ condition.process s.toRow = true := by
  rcases mem_append.mp hs with hs | hs
  · rcases mem_append.mp hs with hs | hs
    · obtain ⟨e, he, hes⟩ := mem_filterMap.mp hs
      obtain ⟨hshows, hp, -⟩ := of_fromDB he hes
      exact ⟨hshows, hp⟩
    · obtain ⟨id, -, hid⟩ := mem_filterMap.mp hs
      obtain ⟨hshows, hp, -⟩ := of_fromUpdated db key hid
      exact ⟨hshows, hp⟩
  · obtain ⟨row, hrow, hrs⟩ := mem_filterMap.mp hs
    obtain ⟨hshows, hp, -⟩ := of_fromNew db hrow hrs
    exact ⟨hshows, hp⟩

lemma mem_processed {dbEntries : List Entry} :
    id ∈ t.processed dbEntries ↔ (∃ e ∈ dbEntries, e.id = id) ∧ t.dirty[id]? ≠ none := by
  rw [processed, mem_filter, mem_map, Std.ExtTreeMap.contains_eq_isSome_getElem?, Option.isSome_iff_ne_none]

lemma pairwise_matching : (t.matching db key condition).Pairwise fun s s' => s.place key ≠ s'.place key := by
  have hnew : ∀ s, s ∈ (t.newRows key).zipIdx.filterMap (fromNew condition) → ∃ i, s.place key = .inserted key i := by
    intro s hs
    obtain ⟨row, hrow, hrs⟩ := mem_filterMap.mp hs
    exact ⟨row.2, (of_fromNew db hrow hrs).2.2⟩
  unfold matching
  rw [pairwise_append, pairwise_append, pairwise_filterMap, pairwise_filterMap, pairwise_filterMap]
  refine ⟨⟨?_, ?_, ?_⟩, ?_, ?_⟩
  · have hnodup : (db.select t.info key condition).Nodup := (db.nodup _ _).filter _
    refine hnodup.imp_of_mem ?_
    intro e e' he he' hne s hs s' hs' hplace
    rw [(of_fromDB he hs).2.2, (of_fromDB he' hs').2.2, Place.stored.injEq] at hplace
    exact hne (db.id_unique _ _ _ e (mem_of_mem_filter he) e' (mem_of_mem_filter he') hplace).2
  · refine (distinct_toList.filter _).imp ?_
    intro id id' hne s hs s' hs' hplace
    rw [(of_fromUpdated db key hs).2.2, (of_fromUpdated db key hs').2.2, Place.stored.injEq] at hplace
    exact hne (by rw [hplace]; simp)
  · intro s hs s' hs' hplace
    obtain ⟨e, he, hes⟩ := mem_filterMap.mp hs
    obtain ⟨id, hid, hids⟩ := mem_filterMap.mp hs'
    obtain ⟨hupdated, hnot⟩ := mem_filter.mp hid
    rw [(of_fromDB he hes).2.2, (of_fromUpdated db key hids).2.2, Place.stored.injEq] at hplace
    subst hplace
    have hdirty := t.updated_dirty key e.id (mem_toList.mp hupdated)
    exact of_decide_eq_true hnot (mem_processed.mpr ⟨⟨e, he, rfl⟩, hdirty⟩)
  · have hnodup : (t.newRows key).zipIdx.Pairwise fun a b => a.2 < b.2 := by
      have hidx := pairwise_lt_range' (s := 0) (n := (t.newRows key).length)
      rwa [← zipIdx_map_snd, pairwise_map] at hidx
    refine hnodup.imp_of_mem ?_
    intro row row' hrow hrow' hlt s hs s' hs' hplace
    rw [(of_fromNew db hrow hs).2.2, (of_fromNew db hrow' hs').2.2, Place.inserted.injEq] at hplace
    omega
  · intro s hs s' hs' hplace
    obtain ⟨i, hi⟩ := hnew s' hs'
    rw [hi] at hplace
    rcases mem_append.mp hs with hs | hs
    · obtain ⟨e, he, hes⟩ := mem_filterMap.mp hs
      rw [(of_fromDB he hes).2.2] at hplace
      cases hplace
    · obtain ⟨id, -, hids⟩ := mem_filterMap.mp hs
      rw [(of_fromUpdated db key hids).2.2] at hplace
      cases hplace

lemma select_sublist : (t.select db key condition).Sublist (t.matching db key (condition.EQ t.info.key key)) := by
  unfold select
  dsimp only
  split
  · exact (drop_sublist _ _).trans (take_sublist _ _)
  · exact List.Sublist.refl _

lemma select_spec (t : MemoryTable2) (db : StateStorage) (key : Str) (condition : Condition) :
    (∀ s ∈ t.select db key condition, Shows db t key s ∧ s.status = .normal) ∧
    (t.select db key condition).Pairwise fun s s' => s.place key ≠ s'.place key := by
  refine ⟨fun s hs => ?_, pairwise_matching.sublist select_sublist⟩
  obtain ⟨hshows, hp⟩ := of_mem_matching (select_sublist.subset hs)
  exact ⟨hshows, (Condition.not_deleted_of_process _ hp).1⟩

end

section

variable {t : MemoryTable2} {db : StateStorage} {key : Str} {f : Row → Row} {mark : Bool} {s : Selected}
  {ss : List Selected} {p : Place}

def changeRow (t : MemoryTable2) (mark : Bool) (key : Str) (f : Row → Row) (s : Selected) : MemoryTable2 :=
  (t.load mark key s).modifyEntry key s.tempIndex s.id f

lemma place_eq_stored (h : s.place key = .stored id) : s.id = id ∧ s.id ≠ 0 := by
  unfold Selected.place placeOf at h
  split at h
  case isTrue hid => exact ⟨Place.stored.inj h, hid⟩
  case isFalse => cases h

lemma lookup_changeRow (hs : Shows db t key s) : (t.changeRow mark key f s).lookup p =
    if p = s.place key then some (f s.toRow) else t.lookup p := by
  unfold changeRow
  rw [lookup_modifyEntry, lookup_load]
  change (if p = s.place key then _ else _) = _
  by_cases hp : p = s.place key
  · rw [if_pos hp, if_pos hp]
    rcases hs with hs | ⟨hid, hnone, -⟩
    · have hnot : ¬(p = .stored s.id ∧ s.id ≠ 0 ∧ t.dirty[s.id]? = none) := by
        rintro ⟨hstored, -, hnone⟩
        rw [← hp, hstored] at hs
        exact absurd (hnone.symm.trans hs) (by simp)
      rw [if_neg hnot, hp, hs, Option.map_some]
    · have hstored : p = .stored s.id := hp.trans (if_pos hid)
      rw [if_pos ⟨hstored, hid, hnone⟩, Option.map_some]
  · rw [if_neg hp, if_neg hp, if_neg]
    rintro ⟨hstored, hid, -⟩
    exact hp (hstored.trans (if_pos hid).symm)

lemma Shows.changeRow {s' : Selected} (hs : Shows db t key s) (hs' : Shows db t key s')
    (hne : s.place key ≠ s'.place key) : Shows db (t.changeRow mark key f s) key s' := by
  rcases hs' with hs' | ⟨hid, hnone, hmem⟩
  · apply Or.inl
    rw [lookup_changeRow hs, if_neg hne.symm]
    exact hs'
  refine .inr ⟨hid, ?_, ?_⟩
  · have hlookup : (t.changeRow mark key f s).lookup (.stored s'.id) = none := by
      rw [lookup_changeRow hs, if_neg]
      · exact hnone
      · exact fun h => hne (h.symm.trans (if_pos hid).symm)
    exact hlookup
  · simpa [MemoryTable2.changeRow] using hmem

lemma lookup_changeRows (hs : ∀ s ∈ ss, Shows db t key s) (hne : ss.Pairwise fun s s' => s.place key ≠ s'.place key) :
    (∀ s ∈ ss, (t.changeRows mark key f ss).lookup (s.place key) = some (f s.toRow)) ∧
      (∀ p, (∀ s ∈ ss, s.place key ≠ p) → (t.changeRows mark key f ss).lookup p = t.lookup p) := by
  induction ss generalizing t with
  | nil => exact ⟨fun s hs => absurd hs not_mem_nil, fun p _ => rfl⟩
  | cons s ss ih =>
    obtain ⟨hhead, htail⟩ := pairwise_cons.mp hne
    have hshow := hs s mem_cons_self
    obtain ⟨hin, hout⟩ := ih (t := t.changeRow mark key f s)
      (fun s' hs' => hshow.changeRow (hs s' (mem_cons_of_mem _ hs')) (hhead s' hs')) htail
    change (∀ s' ∈ s :: ss, ((t.changeRow mark key f s).changeRows mark key f ss).lookup _ = _) ∧
      ∀ p, _ → ((t.changeRow mark key f s).changeRows mark key f ss).lookup p = _
    constructor
    · intro s' hs'
      rcases mem_cons.mp hs' with rfl | hs'
      · rw [hout _ fun s hs => (hhead s hs).symm, lookup_changeRow hshow, if_pos rfl]
      · exact hin s' hs'
    · intro p hp
      rw [hout p fun s' hs' => hp s' (mem_cons_of_mem _ hs'), lookup_changeRow hshow, if_neg (hp s mem_cons_self).symm]

lemma info_changeRows : (t.changeRows mark key f ss).info = t.info := by
  induction ss generalizing t with
  | nil => rfl
  | cons s ss ih =>
    change ((t.changeRow mark key f s).changeRows mark key f ss).info = _
    rw [ih]
    simp [changeRow]

lemma mem_updatedIds_changeRows (hs : ∀ s ∈ ss, Shows db t key s)
    (hne : ss.Pairwise fun s s' => s.place key ≠ s'.place key) {k : Str} :
    n ∈ (t.changeRows mark key f ss).updatedIds k ↔ n ∈ t.updatedIds k ∨
      mark = true ∧ k = key ∧ ∃ s ∈ ss, n = s.id ∧ s.id ≠ 0 ∧ t.dirty[s.id]? = none := by
  induction ss generalizing t with
  | nil => simp [changeRows]
  | cons s ss ih =>
    obtain ⟨hhead, htail⟩ := pairwise_cons.mp hne
    have hshow := hs s mem_cons_self
    change n ∈ ((t.changeRow mark key f s).changeRows mark key f ss).updatedIds k ↔ _
    rw [ih (t := t.changeRow mark key f s)
      (fun s' hs' => hshow.changeRow (hs s' (mem_cons_of_mem _ hs')) (hhead s' hs')) htail]
    have hdirty : ∀ s' ∈ ss, s'.id ≠ 0 → (t.changeRow mark key f s).dirty[s'.id]? = t.dirty[s'.id]? := by
      intro s' hs' hid
      have hlookup : (t.changeRow mark key f s).lookup (.stored s'.id) = t.lookup (.stored s'.id) := by
        rw [lookup_changeRow hshow, if_neg]
        exact fun h => hhead s' hs' (h.symm.trans (if_pos hid).symm)
      exact hlookup
    have hrest : (∃ s' ∈ ss, n = s'.id ∧ s'.id ≠ 0 ∧ (t.changeRow mark key f s).dirty[s'.id]? = none) ↔
        ∃ s' ∈ ss, n = s'.id ∧ s'.id ≠ 0 ∧ t.dirty[s'.id]? = none := by
      constructor
      · rintro ⟨s', hs', hn, hid, hnone⟩
        exact ⟨s', hs', hn, hid, (hdirty s' hs' hid).symm.trans hnone⟩
      · rintro ⟨s', hs', hn, hid, hnone⟩
        exact ⟨s', hs', hn, hid, (hdirty s' hs' hid).trans hnone⟩
    rw [hrest, changeRow, updatedIds_modifyEntry, mem_updatedIds_load]
    simp only [mem_cons, exists_eq_or_imp, and_or_left, or_assoc]

end

section

variable {t : MemoryTable2} {key : Str} {kind : Change.Kind} {p : Place}

def undoRow (kind : Change.Kind) (records : List Change.Record) (row : Row) : Row :=
  records.foldl (fun row record => undoRecord kind record row) row

lemma lookup_rollback_place {records : List Change.Record} {index : Nat}
    (hplace : ∀ record ∈ records, record.index = index ∧ record.id = id) : (t.rollback ⟨kind, key, records⟩).lookup p =
      if p = placeOf key index id then (t.lookup p).map (undoRow kind records) else t.lookup p := by
  induction records generalizing t with
  | nil =>
    change t.lookup p = _
    split
    · cases t.lookup p <;> rfl
    · rfl
  | cons record records ih =>
    obtain ⟨hindex, hid⟩ := hplace record mem_cons_self
    change ((t.modifyEntry key record.index record.id (undoRecord kind record)).rollback
      ⟨kind, key, records⟩).lookup p = _
    rw [ih fun r hr => hplace r (mem_cons_of_mem _ hr), lookup_modifyEntry, hindex, hid]
    split
    · rw [Option.map_map]
      rfl
    · rfl

lemma rollback_append (rs rs' : List Change.Record) :
    t.rollback ⟨kind, key, rs ++ rs'⟩ = (t.rollback ⟨kind, key, rs⟩).rollback ⟨kind, key, rs'⟩ :=
  foldl_append

lemma lookup_rollback (t : MemoryTable2) (kind : Change.Kind) (records : Selected → List Change.Record)
    {ss : List Selected} (hplace : ∀ s, ∀ record ∈ records s, record.index = s.tempIndex ∧ record.id = s.id)
    (hne : ss.Pairwise fun s s' => s.place key ≠ s'.place key) :
    (∀ s ∈ ss, (t.rollback ⟨kind, key, ss.flatMap records⟩).lookup (s.place key) =
        (t.lookup (s.place key)).map (undoRow kind (records s))) ∧
      (∀ p, (∀ s ∈ ss, s.place key ≠ p) → (t.rollback ⟨kind, key, ss.flatMap records⟩).lookup p = t.lookup p) := by
  induction ss generalizing t with
  | nil => exact ⟨fun s hs => absurd hs not_mem_nil, fun p _ => rfl⟩
  | cons s ss ih =>
    obtain ⟨hhead, htail⟩ := pairwise_cons.mp hne
    obtain ⟨hin, hout⟩ := ih (t := t.rollback ⟨kind, key, records s⟩) htail
    have hfirst : ∀ p, (t.rollback ⟨kind, key, records s⟩).lookup p =
        if p = s.place key then (t.lookup p).map (undoRow kind (records s)) else t.lookup p :=
      fun p => lookup_rollback_place (hplace s)
    rw [flatMap_cons, rollback_append]
    constructor
    · intro s' hs'
      rcases mem_cons.mp hs' with rfl | hs'
      · rw [hout _ fun s hs => (hhead s hs).symm, hfirst, if_pos rfl]
      · rw [hin s' hs', hfirst, if_neg (hhead s' hs').symm]
    · intro p hp
      rw [hout p fun s' hs' => hp s' (mem_cons_of_mem _ hs'), hfirst, if_neg (hp s mem_cons_self).symm]

lemma eq_rollback {α : Type} {f : MemoryTable2 → α}
    (hf : ∀ t key index id undo, f (modifyEntry t key index id undo) = f t) : f (t.rollback change) = f t := by
  obtain ⟨kind, key, records⟩ := change
  induction records generalizing t with
  | nil => rfl
  | cons record records ih => exact ih.trans (hf t key record.index record.id (undoRecord kind record))

lemma updatedIds_rollback : (t.rollback change).updatedIds = t.updatedIds :=
  eq_rollback change fun _ _ _ _ _ => updatedIds_modifyEntry

lemma info_rollback : (t.rollback change).info = t.info :=
  eq_rollback change fun _ _ _ _ _ => info_modifyEntry

end

lemma undoRow_setFields {fields : List (Str × Str)} {s : Selected} (hknown : ∀ f ∈ fields, s.fields[f.1]? ≠ none) :
    undoRow .update (updateRecords fields s) (s.toRow.setFields fields) = s.toRow := by
  have hundo : undoRow .update (updateRecords fields s) (s.toRow.setFields fields) =
      (s.toRow.setFields fields).setFields (fields.map fun f => (f.1, s.getField f.1)) := by
    unfold undoRow updateRecords setFields
    rw [foldl_map, foldl_map]
    rfl
  rw [hundo]
  have hfields : ((s.toRow.setFields fields).setFields
      (fields.map fun f => (f.1, s.getField f.1))).fields = s.fields := by
    apply Std.ExtTreeMap.ext_getElem?
    intro k
    have hkeys : (fields.map fun f => (f.1, s.getField f.1)).map Prod.fst = fields.map Prod.fst := by
      rw [map_map]
      rfl
    by_cases hk : k ∈ fields.map Prod.fst
    · obtain ⟨f, hf, rfl⟩ := mem_map.mp hk
      obtain ⟨v, hv⟩ := Option.ne_none_iff_exists'.mp (hknown f hf)
      rw [getElem?_setFields (v := s.getField f.1) _ (hkeys ▸ hk), hv]
      · rw [getField, Std.ExtTreeMap.getD_eq_getD_getElem?, hv, Option.getD_some]
      intro g hg hgk
      obtain ⟨f', -, rfl⟩ := mem_map.mp hg
      rw [hgk]
    · rw [getElem?_setFields_of_notMem (hkeys ▸ hk), getElem?_setFields_of_notMem hk]
  rw [Row.mk.injEq]
  refine ⟨?_, ?_, hfields⟩
  · rw [status_setFields.1, status_setFields.1]
  · rw [status_setFields.2, status_setFields.2]

/-- What a table may look like after a rollback to the savepoint at which it was `t₀`. -/
structure Restored (db : StateStorage) (t₀ t : MemoryTable2) : Prop where
  info : t.info = t₀.info
  kept : ∀ p row, t₀.lookup p = some row → t.lookup p = some row
  stored : ∀ id row, t₀.lookup (.stored id) = none → t.lookup (.stored id) = some row →
    ∃ key, ∃ e ∈ db.rows t₀.info.name key, e.id = id ∧ e.toRow = row
  inserted : ∀ key index row, t₀.lookup (.inserted key index) = none →
    t.lookup (.inserted key index) = some row → row.deleted = true
  updated : ∀ key id, id ∈ t₀.updatedIds key → id ∈ t.updatedIds key
  loaded : ∀ key id, id ∈ t.updatedIds key → id ∈ t₀.updatedIds key ∨
    t₀.lookup (.stored id) = none ∧ ∃ e ∈ db.rows t₀.info.name key, e.id = id

variable {condition : Condition} {row : Row}

namespace Restored

variable {db : StateStorage} {t₀ t₁ t t' : MemoryTable2} {key : Str} {f : Row → Row} {mark : Bool}

lemma refl (t : MemoryTable2) : Restored db t t where
  info := rfl
  kept _ _ h := h
  stored _ _ h h' := absurd (h.symm.trans h') (by simp)
  inserted _ _ _ h h' := absurd (h.symm.trans h') (by simp)
  updated _ _ h := h
  loaded _ _ h := .inl h

lemma lookup_none (h : Restored db t₀ t) {p : Place} (hp : t.lookup p = none) : t₀.lookup p = none := by
  cases hrow : t₀.lookup p with
  | none => rfl
  | some row => exact absurd (hp.symm.trans (h.kept p row hrow)) (by simp)

lemma trans (h : Restored db t₀ t₁) (h' : Restored db t₁ t) : Restored db t₀ t where
  info := h'.info.trans h.info
  kept p row hrow := h'.kept p row (h.kept p row hrow)
  stored id row h0 hrow := by
    cases h1 : t₁.lookup (.stored id) with
    | none => exact h.info ▸ h'.stored id row h1 hrow
    | some row' =>
      rw [h'.kept _ row' h1] at hrow
      cases hrow
      exact h.stored id _ h0 h1
  inserted k i row h0 hrow := by
    cases h1 : t₁.lookup (.inserted k i) with
    | none => exact h'.inserted k i row h1 hrow
    | some row' =>
      rw [h'.kept _ row' h1] at hrow
      cases hrow
      exact h.inserted k i _ h0 h1
  updated k id hid := h'.updated k id (h.updated k id hid)
  loaded k id hid := by
    rcases h'.loaded k id hid with hid | ⟨hnone, hrow⟩
    · exact h.loaded k id hid
    · exact .inr ⟨h.lookup_none hnone, h.info ▸ hrow⟩

lemma of_changeRows {ss : List Selected} {u : Selected → Row → Row} (hs : ∀ s ∈ ss, Shows db t₀ key s)
    (hne : ss.Pairwise fun s s' => s.place key ≠ s'.place key) (h : Restored db (t₀.changeRows mark key f ss) t)
    (hu : ∀ s ∈ ss, u s (f s.toRow) = s.toRow) (hinfo : t'.info = t.info) (hids : t'.updatedIds = t.updatedIds)
    (hin : ∀ s ∈ ss, t'.lookup (s.place key) = (t.lookup (s.place key)).map (u s))
    (hout : ∀ p, (∀ s ∈ ss, s.place key ≠ p) → t'.lookup p = t.lookup p) : Restored db t₀ t' := by
  obtain ⟨hchanged, hsame⟩ := lookup_changeRows hs hne
  have hback : ∀ s ∈ ss, t'.lookup (s.place key) = some s.toRow := by
    intro s hmem
    rw [hin s hmem, h.kept _ _ (hchanged s hmem), Option.map_some, hu s hmem]
  -- a place belongs to one of the rows or to none of them
  have hcases : ∀ p, (∃ s ∈ ss, s.place key = p) ∨ ∀ s ∈ ss, s.place key ≠ p := by
    intro p
    by_cases hp : ∃ s ∈ ss, s.place key = p
    · exact .inl hp
    · exact .inr fun s hmem heq => hp ⟨s, hmem, heq⟩
  have hname : (t₀.changeRows mark key f ss).info = t₀.info := info_changeRows
  constructor
  case info => rw [hinfo, h.info, hname]
  case kept =>
    intro p row hrow
    rcases hcases p with ⟨s, hmem, rfl⟩ | hp
    · rw [hback s hmem, (hs s hmem).of_some hrow]
    · rw [hout p hp]
      exact h.kept p row ((hsame p hp).trans hrow)
  case stored =>
    intro id row hnone hrow
    rcases hcases (.stored id) with ⟨s, hmem, hplace⟩ | hp
    · have hs' := hback s hmem
      rw [hplace, hrow] at hs'
      cases hs'
      exact ⟨key, s.toEntry, ((hs s hmem).of_none (hplace ▸ hnone)).2, (place_eq_stored hplace).1, rfl⟩
    · rw [hout _ hp] at hrow
      exact hname ▸ h.stored id row ((hsame _ hp).trans hnone) hrow
  case inserted =>
    intro k i row hnone hrow
    rcases hcases (.inserted k i) with ⟨s, hmem, hplace⟩ | hp
    · exact absurd (((hs s hmem).of_none (hplace ▸ hnone)).1.symm.trans hplace) (by simp)
    · rw [hout _ hp] at hrow
      exact h.inserted k i row ((hsame _ hp).trans hnone) hrow
  case updated =>
    intro k id hid
    rw [hids]
    exact h.updated k id ((mem_updatedIds_changeRows hs hne).mpr (.inl hid))
  case loaded =>
    intro k id hid
    rw [hids] at hid
    rcases h.loaded k id hid with hid | ⟨hnone, hdb⟩
    · rcases (mem_updatedIds_changeRows hs hne).mp hid with hid | ⟨-, rfl, s, hmem, rfl, hid, hnone⟩
      · exact .inl hid
      have hplace : s.place k = .stored s.id := if_pos hid
      exact .inr ⟨hnone, s.toEntry, ((hs s hmem).of_none (by rwa [hplace])).2, rfl⟩
    · refine .inr ⟨?_, hname ▸ hdb⟩
      rcases hcases (.stored id) with ⟨s, hmem, hplace⟩ | hp
      · rw [← hplace, hchanged s hmem] at hnone
        cases hnone
      · rw [← hsame _ hp]
        exact hnone

section

variable (h : Restored db t₀ t)

include h

lemma newRows_eq : ∃ gone, t.newRows key = t₀.newRows key ++ gone ∧ ∀ row ∈ gone, row.deleted = true := by
  refine ⟨(t.newRows key).drop (t₀.newRows key).length, ?_, fun row hrow => ?_⟩
  · apply ext_getElem?
    intro i
    rcases lt_or_ge i (t₀.newRows key).length with hi | hi
    · rw [getElem?_append_left hi, getElem?_eq_getElem hi]
      exact h.kept (.inserted key i) _ (getElem?_eq_getElem hi)
    · rw [getElem?_append_right hi, getElem?_drop, Nat.add_sub_cancel' hi]
  · obtain ⟨i, hi⟩ := mem_iff_getElem?.mp hrow
    rw [getElem?_drop] at hi
    exact h.inserted key _ row (getElem?_eq_none (Nat.le_add_right _ i)) hi

lemma stored_eq (he : e ∈ db.rows t₀.info.name key)
    (hnone : t₀.lookup (.stored e.id) = none) (hrow : t.lookup (.stored e.id) = some row) : row = e.toRow := by
  obtain ⟨k, e', he', hid, rfl⟩ := h.stored e.id row hnone hrow
  rw [(db.id_unique _ _ _ e' he' e he hid).2]

lemma fromDB_eq (he : e ∈ db.select t₀.info key condition) : t.fromDB condition e = t₀.fromDB condition e := by
  obtain ⟨hmem, hp⟩ := mem_filter.mp he
  unfold fromDB
  cases h0 : t₀.dirty[e.id]? with
  | some row =>
    have hrow : t.dirty[e.id]? = some row := h.kept (.stored e.id) row h0
    rw [hrow]
  | none =>
    cases hrow : t.dirty[e.id]? with
    | none => rfl
    | some =>
      have hsame := h.stored_eq hmem h0 hrow
      simp only [hsame, hp, if_true]

/-- What `select` takes from the updated rows is the same: the further ones are as in the database, so they have been
found there if they satisfy the condition. -/
theorem fromUpdated_eq :
    ((t.updatedIds key).toList.filter fun id => id ∉ t.processed (db.select t₀.info key condition)).filterMap
        (t.fromUpdated condition) = ((t₀.updatedIds key).toList.filter fun id =>
        id ∉ t₀.processed (db.select t₀.info key condition)).filterMap (t₀.fromUpdated condition) := by
  have hsorted : (t₀.updatedIds key).toList = (t.updatedIds key).toList.filter fun id => id ∈ t₀.updatedIds key := by
    have hlt : ∀ ids : Std.ExtTreeSet Nat, ids.toList.Pairwise (· < ·) := fun ids =>
      ordered_toList.imp Nat.compare_eq_lt.mp
    apply (hlt _).eq_of_mem_iff ((hlt _).filter _)
    intro id
    simp only [mem_toList, mem_filter, decide_eq_true_eq]
    exact ⟨fun hid => ⟨h.updated key id hid, hid⟩, fun hid => hid.2⟩
  rw [hsorted, filter_filter, filterMap_filter, filterMap_filter]
  apply filterMap_congr
  intro id hid
  rw [mem_toList] at hid
  simp only [Bool.and_eq_true, decide_eq_true_eq, mem_processed]
  rcases h.loaded key id hid with hid0 | ⟨hnone, e, he, rfl⟩
  · -- an updated row of the savepoint
    obtain ⟨row, hrow⟩ := Option.ne_none_iff_exists'.mp (t₀.updated_dirty key id hid0)
    have hrow' : t.dirty[id]? = some row := h.kept (.stored id) row hrow
    simp [fromUpdated, hrow, hrow', hid0]
  have hid0 : e.id ∉ t₀.updatedIds key := fun hmem => t₀.updated_dirty key e.id hmem hnone
  rw [if_neg fun hmem : _ ∧ e.id ∈ t₀.updatedIds key => hid0 hmem.2]
  unfold fromUpdated
  cases hrow : t.dirty[e.id]? with
  | none => simp
  | some =>
    have hsame := h.stored_eq he hnone hrow
    split
    case isFalse => rfl
    case isTrue hnot =>
      dsimp only
      rw [if_neg]
      intro hp
      rw [hsame] at hp
      exact hnot ⟨⟨e, mem_filter.mpr ⟨he, hp⟩, rfl⟩, by simp⟩

lemma matching_eq (key : Str) (condition : Condition) : t.matching db key condition = t₀.matching db key condition := by
  obtain ⟨gone, hnew, hgone⟩ := h.newRows_eq
  have hdb : (db.select t₀.info key condition).filterMap (t.fromDB condition) =
      (db.select t₀.info key condition).filterMap (t₀.fromDB condition) :=
    filterMap_congr fun e he => h.fromDB_eq he
  have hlast : (gone.zipIdx (t₀.newRows key).length).filterMap (fromNew condition) = [] := by
    rw [filterMap_eq_nil_iff]
    intro row hrow
    have hdeleted := hgone row.1 (fst_mem_of_mem_zipIdx hrow)
    simp [fromNew, Condition.process, hdeleted]
  unfold matching
  rw [h.info]
  dsimp only
  rw [hdb, h.fromUpdated_eq, hnew, zipIdx_append, zero_add, filterMap_append, hlast, append_nil]

lemma select_eq (key : Str) (condition : Condition) : t.select db key condition = t₀.select db key condition := by
  unfold select
  rw [h.info]
  dsimp only
  rw [h.matching_eq]

end

lemma of_addNew (h : Restored db (t₀.addNew key row) t) :
    Restored db t₀ (t.rollback ⟨.insert, key, [{ index := (t₀.newRows key).length }]⟩) := by
  have hafter : ∀ p, (t.rollback ⟨.insert, key, [{ index := (t₀.newRows key).length }]⟩).lookup p =
      if p = .inserted key (t₀.newRows key).length then (t.lookup p).map (setDeleted true)
      else t.lookup p := by
    intro p
    change (t.modifyEntry key (t₀.newRows key).length 0 (setDeleted true)).lookup p = _
    rw [lookup_modifyEntry]
    rfl
  have hnone : t₀.lookup (.inserted key (t₀.newRows key).length) = none := getElem?_eq_none (le_refl _)
  have hold : ∀ p, p ≠ .inserted key (t₀.newRows key).length →
      (t₀.addNew key row).lookup p = t₀.lookup p := fun p hp => by
    rw [lookup_addNew, if_neg hp]
  constructor
  case info =>
    rw [info_rollback, h.info]
    rfl
  case kept =>
    intro p r hr
    have hp : p ≠ .inserted key (t₀.newRows key).length := by
      rintro rfl
      rw [hnone] at hr
      cases hr
    rw [hafter, if_neg hp]
    exact h.kept p r ((hold p hp).trans hr)
  case stored =>
    intro id r hid hr
    exact h.stored id r ((hold _ (by simp)).trans hid) hr
  case inserted =>
    intro k i r hi hr
    rw [hafter] at hr
    split at hr
    · obtain ⟨r', -, rfl⟩ := Option.map_eq_some_iff.mp hr
      rfl
    case isFalse hp => exact h.inserted k i r ((hold _ hp).trans hi) hr
  case updated =>
    intro k id hid
    exact h.updated k id hid
  case loaded =>
    intro k id hid
    exact h.loaded k id hid

end Restored

end MemoryTable2

open MemoryTable2

/-- An update that is not refused writes only fields that the rows it finds have. -/
def TableCall.WritesKnown (db : StateStorage) (t : MemoryTable2) : TableCall → Prop
  | update key entry condition options => (t.update db key entry condition options).isOk = true →
    ∀ s ∈ t.select db key condition, ∀ f ∈ t.writtenFields entry, s.fields[f.1]? ≠ none
  | _ => True

instance (db : StateStorage) (t : MemoryTable2) (c : TableCall) : Decidable (c.WritesKnown db t) :=
  match c with
  | .insert .. => isTrue trivial
  | .update .. => inferInstanceAs (Decidable (_ → _))
  | .remove .. => isTrue trivial

lemma MemoryTable2.Restored.of_apply {db : StateStorage} {t₀ t₁ t : MemoryTable2} {c : TableCall}
    {change : Change} (hc : c.apply db t₀ = .ok (t₁, change)) (hw : c.WritesKnown db t₀)
    (h : Restored db t₁ t) : Restored db t₀ (t.rollback change) := by
  cases c with
  | insert =>
    simp only [TableCall.apply, insert] at hc
    split at hc
    · cases hc
    split at hc
    · cases hc
    · cases hc
      exact h.of_addNew
  | update key entry condition options =>
    have hw := hw (by rw [show t₀.update db key entry condition options = _ from hc]; rfl)
    simp only [TableCall.apply, update] at hc
    split at hc
    · cases hc
    split at hc
    · cases hc
    cases hc
    obtain ⟨hshows, hne⟩ := select_spec t₀ db key condition
    obtain ⟨hin, hout⟩ := lookup_rollback t .update (updateRecords (t₀.writtenFields entry)) (fun s record hr => by
        obtain ⟨f, -, rfl⟩ := mem_map.mp hr
        exact ⟨rfl, rfl⟩) hne
    exact h.of_changeRows (fun s hs => (hshows s hs).1) hne
      (fun s hs => undoRow_setFields (hw s hs)) (info_rollback _) (updatedIds_rollback _) hin hout
  | remove key condition =>
    simp only [TableCall.apply, remove] at hc
    split at hc
    · cases hc
    cases hc
    obtain ⟨hshows, hne⟩ := select_spec t₀ db key condition
    obtain ⟨hin, hout⟩ := lookup_rollback t .remove (fun s : Selected => [{ index := s.tempIndex, id := s.id }])
      (fun s record hr => by
        cases mem_singleton.mp hr
        exact ⟨rfl, rfl⟩) hne
    rw [← map_eq_flatMap] at hin hout
    refine h.of_changeRows (fun s hs => (hshows s hs).1) hne (fun s hs => ?_) (info_rollback _)
      (updatedIds_rollback _) hin hout
    rw [Row.mk.injEq]
    exact ⟨(hshows s hs).2.symm, rfl, rfl⟩

namespace MemoryTableFactory2

variable {db : StateStorage} {names : Set Str} {f f₀ f₁ : MemoryTableFactory2}

lemma changeLog_undoLast : f.undoLast.changeLog = f.changeLog.tail := by
  unfold undoLast
  split
  case h_1 h => rw [h, tail_nil]
  case h_2 h => rw [h, tail_cons]

lemma changeLog_iterate (n : Nat) : (undoLast^[n] f).changeLog = f.changeLog.drop n := by
  induction n generalizing f with
  | zero => rfl
  | succ n ih => rw [iterate_succ_apply, ih, changeLog_undoLast, drop_tail]

lemma changeLog_rollback (n : Nat) : (f.rollback n).changeLog = f.changeLog.drop (f.changeLog.length - n) :=
  changeLog_iterate _

lemma rollback_rollback {m : Nat} (h : n ≤ m) : (f.rollback m).rollback n = f.rollback n := by
  have hlen : (f.rollback m).changeLog.length = f.changeLog.length - (f.changeLog.length - m) := by
    rw [changeLog_rollback, length_drop]
  unfold rollback at hlen ⊢
  rw [hlen, ← iterate_add_apply]
  congr 2
  omega

lemma rollback_of_log (h : f.changeLog = f₀.changeLog) : f.rollback f₀.savepoint = f := by
  rw [rollback, savepoint, h, Nat.sub_self, iterate_zero_apply]

lemma rollback_succ (h : f.changeLog.length = n + 1) : f.rollback n = f.undoLast := by
  rw [rollback, h, Nat.add_sub_cancel_left, iterate_one]

lemma call_of_apply {t t' : MemoryTable2} {change : Change}
    (ht : f.name2Table[c.1]? = some t) (happly : c.2.apply db t = .ok (t', change)) :
    f.call db c = ⟨f.name2Table.insert c.1 t', (c.1, change) :: f.changeLog⟩ := by
  unfold call
  rw [ht]
  dsimp only
  rw [happly]

lemma call_cases (db : StateStorage) (f : MemoryTableFactory2) (c : Str × TableCall) : call db f c = f ∨
    ∃ t t' change, f.name2Table[c.1]? = some t ∧ c.2.apply db t = .ok (t', change) ∧
      call db f c = ⟨f.name2Table.insert c.1 t', (c.1, change) :: f.changeLog⟩ := by
  cases ht : f.name2Table[c.1]? with
  | none =>
    apply Or.inl
    unfold call
    rw [ht]
  | some t =>
    cases happly : c.2.apply db t with
    | error =>
      apply Or.inl
      unfold call
      rw [ht]
      dsimp only
      rw [happly]
    | ok r => exact .inr ⟨t, r.1, r.2, rfl, happly, call_of_apply ht happly⟩

/-- Of the tables with the given names, those of the savepoint are restored and those opened later are as new. -/
structure Restored (db : StateStorage) (names : Set Str) (f₀ f : MemoryTableFactory2) : Prop where
  kept : ∀ name ∈ names, ∀ t₀, f₀.name2Table[name]? = some t₀ →
    ∃ t, f.name2Table[name]? = some t ∧ MemoryTable2.Restored db t₀ t
  opened : ∀ name ∈ names, ∀ t, f₀.name2Table[name]? = none → f.name2Table[name]? = some t →
    MemoryTable2.Restored db (opened t.info) t
  log : f.changeLog = f₀.changeLog

lemma Restored.refl (f : MemoryTableFactory2) : Restored db names f f where
  kept _ _ t₀ h := ⟨t₀, h, .refl t₀⟩
  opened _ _ _ h h' := absurd (h.symm.trans h') (by simp)
  log := rfl

lemma Restored.trans (h : Restored db names f₀ f₁) (h' : Restored db names f₁ f) : Restored db names f₀ f where
  kept name hname t₀ ht₀ := by
    obtain ⟨t₁, ht₁, hrest⟩ := h.kept name hname t₀ ht₀
    obtain ⟨t, ht, hrest'⟩ := h'.kept name hname t₁ ht₁
    exact ⟨t, ht, hrest.trans hrest'⟩
  opened name hname t hnone ht := by
    cases h1 : f₁.name2Table[name]? with
    | none => exact h'.opened name hname t h1 ht
    | some t₁ =>
      obtain ⟨t', ht', hrest⟩ := h'.kept name hname t₁ h1
      cases ht'.symm.trans ht
      rw [hrest.info]
      exact (h.opened name hname t₁ hnone h1).trans hrest
  log := h'.log.trans h.log

def WritesKnown (db : StateStorage) (f : MemoryTableFactory2) (c : Str × TableCall) : Prop :=
  ∀ t ∈ f.name2Table[c.1]?, c.2.WritesKnown db t

instance (db : StateStorage) (f : MemoryTableFactory2) (c : Str × TableCall) :
    Decidable (f.WritesKnown db c) :=
  inferInstanceAs (Decidable (∀ t ∈ f.name2Table[c.1]?, c.2.WritesKnown db t))

lemma Restored.of_call (hw : c.1 ∈ names → f₀.WritesKnown db c)
    (h : Restored db names (call db f₀ c) f) : Restored db names f₀ (f.rollback f₀.savepoint) := by
  rcases call_cases db f₀ c with hcall | ⟨t₀, t₁, change, ht₀, happly, hcall⟩
  · rw [hcall] at h
    rwa [rollback_of_log h.log]
  rw [hcall] at h
  have hlog : f.changeLog = (c.1, change) :: f₀.changeLog := h.log
  have hundo : f.undoLast = ⟨f.name2Table.modify c.1 fun t => t.rollback change, f₀.changeLog⟩ := by
    unfold undoLast
    rw [hlog]
  rw [rollback_succ (n := f₀.savepoint) (by rw [hlog]; rfl), hundo]
  constructor
  case kept =>
    intro name hmem t ht
    by_cases hname : c.1 = name
    · subst hname
      cases ht.symm.trans ht₀
      obtain ⟨t', ht', hrest⟩ := h.kept c.1 hmem t₁ Std.ExtTreeMap.getElem?_insert_self
      refine ⟨t'.rollback change, ?_, hrest.of_apply happly (hw hmem _ ht₀)⟩
      rw [Std.ExtTreeMap.getElem?_modify_self, ht', Option.map_some]
    · rw [getElem?_modify_of_ne hname]
      exact h.kept name hmem t ((getElem?_insert_of_ne hname).trans ht)
  case opened =>
    intro name hmem t hnone ht
    have hname : c.1 ≠ name := by
      rintro rfl
      exact absurd (hnone.symm.trans ht₀) (by simp)
    rw [getElem?_modify_of_ne hname] at ht
    exact h.opened name hmem t ((getElem?_insert_of_ne hname).trans hnone) ht
  case log => rfl

lemma savepoint_le_call : f.savepoint ≤ (call db f c).savepoint := by
  rcases call_cases db f c with hcall | ⟨t, t', change, -, -, hcall⟩
  · rw [hcall]
  · rw [hcall]
    exact Nat.le_succ _

lemma Restored.of_run {calls : List (Str × TableCall)} (hcalls : Along (call db) (WritesKnown db) f₀ calls)
    (h : Restored db names (run (call db) f₀ calls) f) : Restored db names f₀ (f.rollback f₀.savepoint) := by
  induction calls generalizing f₀ with
  | nil =>
    have hlog : f.changeLog = f₀.changeLog := h.log
    rwa [rollback_of_log hlog]
  | cons c calls ih =>
    have hfirst := of_call (fun _ => hcalls.1) (ih hcalls.2 h)
    rwa [rollback_rollback savepoint_le_call] at hfirst

def rowUnder (table rowKey : Str) (fields : FieldMap) : StateStorage where
  rows name key := if name = table ∧ key = rowKey then [{ id := 1, fields := fields }] else []
  id_ne_zero name key e he := by
    split at he
    · cases mem_singleton.mp he
      exact one_ne_zero
    · exact absurd he not_mem_nil
  id_unique name key key' e he e' he' _ := by
    split at he
    case isTrue hkey =>
      split at he'
      case isTrue hkey' =>
        rw [mem_singleton.mp he, mem_singleton.mp he']
        exact ⟨hkey.2.trans hkey'.2.symm, rfl⟩
      case isFalse => exact absurd he' not_mem_nil
    case isFalse => exact absurd he not_mem_nil
  nodup name key := by
    split
    · exact nodup_singleton _
    · exact nodup_nil

def oneRow (fields : FieldMap) : StateStorage :=
  rowUnder "t".toList "1".toList fields

def tableT : MemoryTable2 :=
  .opened ⟨"t".toList, "k".toList, ["a".toList, "k".toList], [], true, true⟩

def oneTable : MemoryTableFactory2 where
  name2Table := (∅ : Std.ExtTreeMap Str MemoryTable2).insert "t".toList tableT

def keyField : FieldMap :=
  (∅ : FieldMap).insert "k".toList "1".toList

def updateA : Str × TableCall :=
  ("t".toList, .update "1".toList ((∅ : FieldMap).insert "a".toList "5".toList) {} {})

end MemoryTableFactory2

end FiscoBcos
