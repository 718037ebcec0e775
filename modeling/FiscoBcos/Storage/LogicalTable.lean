import FiscoBcos.Storage.Rollback

/-!
# The logical table

The rows of the database with the effects of all calls that have not been rolled back. `Traced` keeps the effects next to
the tables and their change log; a rollback drops them with the changes.
-/

namespace FiscoBcos

open List Option Function MemoryTable2 Selected Std Set

open Machine

inductive Effect where
  | insert (key : Str) (index : Nat) (row : Row)
  | update (places : List Place) (fields : List (Str × Str))
  | remove (places : List Place)

def Effect.apply (key : Str) (rows : List (Place × Row)) : Effect → List (Place × Row)
  | insert k index row => if k = key then rows ++ [(.inserted key index, row)] else rows
  | update places fields => rows.map fun r => if r.1 ∈ places then (r.1, r.2.setFields fields) else r
  | remove places => rows.map fun r => if r.1 ∈ places then (r.1, r.2.setStatus .deleted) else r

/-- The rows of a key after the effects, of which the newest is the first. -/
def logicalRows (db : StateStorage) (name : Str) (effects : List Effect) (key : Str) : List (Place × Row) :=
  match effects with
  | [] => (db.rows name key).map fun e => (.stored e.id, e.toRow)
  | effect :: effects => effect.apply key (logicalRows db name effects key)

def TableCall.effect (db : StateStorage) (t : MemoryTable2) : TableCall → Effect
  | insert key entry _ => .insert key (t.newRows key).length { fields := entry.insert t.info.key key }
  | update key entry condition _ =>
    .update ((t.select db key condition).map (place key)) (t.writtenFields entry)
  | remove key condition _ => .remove ((t.select db key condition).map (place key))

structure Traced where
  factory : MemoryTableFactory2
  effects : List (Str × Effect) := []

inductive TableOp where
  | call (c : Str × TableCall)
  | rollback (savepoint : Nat)

namespace Traced

def step (db : StateStorage) (s : Traced) : TableOp → Traced
  | .call c =>
    match s.factory.name2Table[c.1]? with
    | none => s
    | some t =>
      match c.2.apply db t with
      | .error _ => s
      | .ok _ => ⟨s.factory.call db c, (c.1, c.2.effect db t) :: s.effects⟩
  | .rollback savepoint =>
    ⟨s.factory.rollback savepoint, s.effects.drop (s.factory.changeLog.length - savepoint)⟩

def effectsOn (effects : List (Str × Effect)) (name : Str) : List Effect :=
  (effects.filter fun e => e.1 = name).map Prod.snd

end Traced

/-- Besides, a row that an update finds in `m_dirty` is in `m_dirty_updated`. -/
def TableCall.Tracked (db : StateStorage) (t : MemoryTable2) (c : TableCall) : Prop :=
  c.WritesKnown db t ∧ match c with
    | update key _ condition _ => ∀ s ∈ t.select db key condition, t.dirty[s.id]? ≠ none → s.id ∈ t.updatedIds key
    | _ => True

instance (db : StateStorage) (t : MemoryTable2) (c : TableCall) : Decidable (c.Tracked db t) :=
  match c with
  | .insert .. => inferInstanceAs (Decidable (_ ∧ True))
  | .update key _ condition _ => inferInstanceAs (Decidable (_ ∧ ∀ s ∈ t.select db key condition,
      t.dirty[s.id]? ≠ none → s.id ∈ t.updatedIds key))
  | .remove .. => inferInstanceAs (Decidable (_ ∧ True))

def Traced.Tracked (db : StateStorage) (s : Traced) : TableOp → Prop
  | .call c => ∀ t ∈ s.factory.name2Table[c.1]?, c.2.Tracked db t
  | .rollback _ => True

instance (db : StateStorage) (s : Traced) (op : TableOp) : Decidable (s.Tracked db op) :=
  match op with
  | .call c => inferInstanceAs (Decidable (∀ t ∈ s.factory.name2Table[c.1]?, c.2.Tracked db t))
  | .rollback _ => isTrue trivial

namespace MemoryTable2

def current (t : MemoryTable2) (e : Entry) : Row :=
  (t.lookup (.stored e.id)).getD e.toRow

def liveRows (key : Str) (rows : List Row) : List (Place × Row) :=
  (rows.zipIdx.filter fun r => !r.1.deleted).map fun r => (.inserted key r.2, r.1)

def rows (db : StateStorage) (t : MemoryTable2) (key : Str) : List (Place × Row) :=
  ((db.rows t.info.name key).map fun e => (.stored e.id, t.current e)) ++ liveRows key (t.newRows key)

variable {f : Row → Row} {ss : List Selected} (info : TableInfo) {mark : Bool}

section

variable {db : StateStorage} {t₀ t : MemoryTable2} {key : Str}

lemma Restored.current_eq (h : Restored db t₀ t) {e : Entry} (he : e ∈ db.rows t₀.info.name key) :
    t.current e = t₀.current e := by
  unfold current
  cases h0 : t₀.lookup (.stored e.id) with
  | some row => rw [h.kept _ row h0]
  | none =>
    cases hrow : t.lookup (.stored e.id) with
    | none => rfl
    | some => exact h.stored_eq he h0 hrow

lemma Restored.rows_eq (h : Restored db t₀ t) (key : Str) : t.rows db key = t₀.rows db key := by
  obtain ⟨gone, hnew, hgone⟩ := h.newRows_eq
  have hlive : liveRows key (t.newRows key) = liveRows key (t₀.newRows key) := by
    unfold liveRows
    rw [hnew, zipIdx_append, filter_append]
    have hlast : (gone.zipIdx (0 + (t₀.newRows key).length)).filter (fun r => !r.1.deleted) = [] := by
      rw [filter_eq_nil_iff]
      intro r hr
      simp [hgone r.1 (fst_mem_of_mem_zipIdx hr)]
    rw [hlast, append_nil]
  unfold rows
  rw [hlive, h.info]
  congr 1
  exact map_congr_left fun e he => by rw [h.current_eq he]

lemma rows_opened (key : Str) : (opened info).rows db key = logicalRows db info.name [] key := by
  simp [rows, logicalRows, liveRows, newRows, opened, current, lookup]

lemma rows_addNew {k : Str} {row : Row} (hrow : row.deleted = false) : (t.addNew key row).rows db k =
      Effect.apply k (t.rows db k) (.insert key (t.newRows key).length row) := by
  unfold rows Effect.apply
  dsimp only
  have hnew : (t.addNew key row).newRows k = if key = k then t.newRows key ++ [row] else t.newRows k := by
    simp only [newRows, addNew, ExtTreeMap.getD_insert, LawfulEqCmp.compare_eq_iff_eq]
  rw [hnew]
  by_cases hk : key = k
  · subst hk
    rw [if_pos rfl, if_pos rfl, append_assoc]
    congr 1
    simp [liveRows, zipIdx_append, hrow]
  · rw [if_neg hk, if_neg hk]
    rfl

lemma zipIdx_map_zipIdx (rows : List Row) (g : Row × Nat → Row) :
    (rows.zipIdx.map g).zipIdx = rows.zipIdx.map fun r => (g r, r.2) := by
  apply ext_getElem?
  intro i
  simp only [getElem?_zipIdx, getElem?_map, Option.map_map, zero_add]
  cases rows[i]? <;> rfl

lemma liveRows_map {k : Str} {rows : List Row} (hf : ∀ row, (f row).deleted = row.deleted) {places : List Place} :
    liveRows k (rows.zipIdx.map fun r => if .inserted k r.2 ∈ places then f r.1 else r.1) =
      (liveRows k rows).map fun r => if r.1 ∈ places then (r.1, f r.2) else r := by
  unfold liveRows
  rw [zipIdx_map_zipIdx, List.filter_map, List.map_map, List.map_map]
  have hdeleted : ((fun r : Row × Nat => !r.1.deleted) ∘ fun r : Row × Nat =>
      (if .inserted k r.2 ∈ places then f r.1 else r.1, r.2)) = fun r => !r.1.deleted := by
    funext r
    dsimp only [comp_apply]
    split
    · rw [hf]
    · rfl
  rw [hdeleted]
  apply List.map_congr_left
  intro r _
  dsimp only [comp_apply]
  split <;> rfl

lemma rows_changeRows (hs : ∀ s ∈ ss, Shows db t key s) (hne : ss.Pairwise fun s s' => s.place key ≠ s'.place key)
    (hf : ∀ row, (f row).deleted = row.deleted) (k : Str) :
    (t.changeRows mark key f ss).rows db k = (t.rows db k).map fun r =>
      if r.1 ∈ ss.map (place key) then (r.1, f r.2) else r := by
  obtain ⟨hin, hout⟩ := lookup_changeRows hs hne
  have hlookup : ∀ p row, t.lookup p = some row → (t.changeRows mark key f ss).lookup p =
      some (if p ∈ ss.map (place key) then f row else row) := by
    intro p row hrow
    by_cases hp : p ∈ ss.map (place key)
    · obtain ⟨s, hmem, rfl⟩ := mem_map.mp hp
      rw [if_pos hp, hin s hmem, (hs s hmem).of_some hrow]
    · rw [if_neg hp, hout p fun s hmem heq => hp (mem_map.mpr ⟨s, hmem, heq⟩), hrow]
  have hnone : ∀ p, t.lookup p = none → (∀ id, p ≠ .stored id) → (t.changeRows mark key f ss).lookup p = none := by
    intro p hp hstored
    rw [hout, hp]
    rintro s hmem rfl
    exact hstored s.id ((hs s hmem).of_none hp).1
  unfold rows
  rw [info_changeRows, map_append]
  congr 1
  · rw [List.map_map]
    apply map_congr_left
    intro e he
    dsimp only [comp_apply]
    unfold current
    cases hrow : t.lookup (.stored e.id) with
    | some row =>
      rw [hlookup _ row hrow]
      split <;> rfl
    | none =>
      by_cases hp : .stored e.id ∈ ss.map (place key)
      · obtain ⟨s, hmem, hplace⟩ := mem_map.mp hp
        rw [if_pos hp, ← hplace, hin s hmem]
        have hdb := ((hs s hmem).of_none (hplace ▸ hrow)).2
        rw [(db.id_unique _ _ _ e he s.toEntry hdb (place_eq_stored hplace).1.symm).2]
        rfl
      · rw [if_neg hp, hout _ fun s hmem heq => hp (mem_map.mpr ⟨s, hmem, heq⟩), hrow]
  · rw [← liveRows_map hf]
    congr 1
    apply ext_getElem?
    intro i
    rw [getElem?_map, getElem?_zipIdx]
    change (t.changeRows mark key f ss).lookup (.inserted k i) = _
    cases hrow : t.lookup (.inserted k i) with
    | some row =>
      have hget : (t.newRows k)[i]? = some row := hrow
      rw [hlookup _ row hrow, hget]
      simp
    | none =>
      have hget : (t.newRows k)[i]? = none := hrow
      rw [hnone _ hrow (by simp), hget]
      rfl

end

structure Overlaid (db : StateStorage) (t : MemoryTable2) (effects : List Effect) : Prop where
  rows : ∀ key, t.rows db key = logicalRows db t.info.name effects key
  known : ∀ key id, id ∈ t.updatedIds key → ∃ e ∈ db.rows t.info.name key, e.id = id
  /-- a row that differs from the one of the database is marked as updated or removed -/
  complete : ∀ key, ∀ e ∈ db.rows t.info.name key, ∀ row, t.lookup (.stored e.id) = some row →
    row.status = .normal → e.id ∈ t.updatedIds key ∨ row = e.toRow
  keyed : (∀ key, ∀ e ∈ db.rows t.info.name key, e.fields[t.info.key]? = some key) →
    ∀ key, ∀ r ∈ t.rows db key, r.2.fields[t.info.key]? = some key

namespace Overlaid

variable {db : StateStorage} {t₀ t : MemoryTable2} {effects : List Effect} {key : Str}

lemma opened : Overlaid db (opened info) [] where
  rows := rows_opened info
  known key id h := absurd h (by simp [updatedIds, MemoryTable2.opened])
  complete key e _ row h := absurd h (by simp [lookup, MemoryTable2.opened])
  keyed h key r hr := by
    rw [rows_opened] at hr
    obtain ⟨e, he, rfl⟩ := mem_map.mp hr
    exact h key e he

lemma of_restored (h : Overlaid db t₀ effects) (hrest : Restored db t₀ t) : Overlaid db t effects where
  rows key := by rw [hrest.rows_eq, hrest.info, h.rows]
  known key id hid := by
    rw [hrest.info]
    rcases hrest.loaded key id hid with hid | ⟨-, he⟩
    · exact h.known key id hid
    · exact he
  complete key e he row hrow hstatus := by
    rw [hrest.info] at he
    cases h0 : t₀.lookup (.stored e.id) with
    | none => exact .inr (hrest.stored_eq he h0 hrow)
    | some row' =>
      rw [hrest.kept _ row' h0] at hrow
      cases hrow
      exact (h.complete key e he _ h0 hstatus).imp_left (hrest.updated key e.id)
  keyed hdb key r hr := by
    rw [hrest.info] at hdb ⊢
    rw [hrest.rows_eq] at hr
    exact h.keyed hdb key r hr

lemma addNew (h : Overlaid db t effects) (entry : FieldMap) :
    Overlaid db (t.addNew key { fields := entry.insert t.info.key key })
      (.insert key (t.newRows key).length { fields := entry.insert t.info.key key } :: effects) where
  rows k := by
    rw [rows_addNew rfl, h.rows]
    rfl
  known := h.known
  complete := h.complete
  keyed hdb k r hr := by
    rw [rows_addNew rfl] at hr
    unfold Effect.apply at hr
    dsimp only at hr
    split at hr
    case isTrue hk =>
      rcases mem_append.mp hr with hr | hr
      · exact h.keyed hdb k r hr
      · rw [mem_singleton.mp hr, ← hk]
        exact ExtTreeMap.getElem?_insert_self
    case isFalse => exact h.keyed hdb k r hr

lemma changeRows (h : Overlaid db t effects) {effect : Effect} (hs : ∀ s ∈ ss, Shows db t key s)
    (hne : ss.Pairwise fun s s' => s.place key ≠ s'.place key)
    (hf : ∀ row, (f row).deleted = row.deleted ∧ (f row).fields[t.info.key]? = row.fields[t.info.key]?)
    (heffect : ∀ k rows, Effect.apply k rows effect = rows.map fun r =>
      if r.1 ∈ ss.map (place key) then (r.1, f r.2) else r) (hmark : (∀ row, (f row).status = .deleted) ∨
      mark = true ∧ ∀ s ∈ ss, t.dirty[s.id]? ≠ none → s.id ∈ t.updatedIds key) :
    Overlaid db (t.changeRows mark key f ss) (effect :: effects) where
  rows k := by
    rw [rows_changeRows hs hne fun row => (hf row).1, h.rows, info_changeRows, ← heffect]
    rfl
  known k id hid := by
    rw [info_changeRows]
    rcases (mem_updatedIds_changeRows hs hne).mp hid with hid | ⟨-, rfl, s, hmem, rfl, hid, hnone⟩
    · exact h.known k id hid
    have hplace : s.place k = .stored s.id := if_pos hid
    exact ⟨s.toEntry, ((hs s hmem).of_none (by rwa [hplace])).2, rfl⟩
  complete k e he row hrow hstatus := by
    rw [info_changeRows] at he
    obtain ⟨hin, hout⟩ := lookup_changeRows hs hne
    by_cases hp : ∃ s ∈ ss, s.place key = .stored e.id
    · obtain ⟨s, hmem, hplace⟩ := hp
      obtain ⟨hid, hzero⟩ := place_eq_stored hplace
      have hchanged := hin s hmem
      rw [hplace, hrow] at hchanged
      cases hchanged
      rcases hmark with hdeleted | ⟨rfl, hupdated⟩
      · rw [hdeleted] at hstatus
        cases hstatus
      left
      rw [mem_updatedIds_changeRows hs hne]
      by_cases hdirty : t.dirty[s.id]? = none
      · have hdb := ((hs s hmem).of_none (by rwa [hplace, ← hid])).2
        have hkey := (db.id_unique _ _ _ e he s.toEntry hdb hid.symm).1
        exact .inr ⟨rfl, hkey, s, hmem, hid.symm, hzero, hdirty⟩
      · have hmarked := hupdated s hmem hdirty
        obtain ⟨e', he', hid'⟩ := h.known key s.id hmarked
        have hkey := (db.id_unique _ _ _ e he e' he' (hid.symm.trans hid'.symm)).1
        rw [← hid, hkey]
        exact .inl hmarked
    · rw [hout _ fun s hmem heq => hp ⟨s, hmem, heq⟩] at hrow
      exact (h.complete k e he row hrow hstatus).imp_left fun hid =>
        (mem_updatedIds_changeRows hs hne).mpr (.inl hid)
  keyed hdb k r hr := by
    rw [info_changeRows] at hdb ⊢
    rw [rows_changeRows hs hne fun row => (hf row).1] at hr
    obtain ⟨r', hr', rfl⟩ := mem_map.mp hr
    have hold := h.keyed hdb k r' hr'
    split
    · exact (hf r'.2).2.trans hold
    · exact hold

lemma of_apply (h : Overlaid db t₀ effects) {c : TableCall} {change : Change} (hc : c.apply db t₀ = .ok (t, change))
    (htracked : c.Tracked db t₀) : Overlaid db t (c.effect db t₀ :: effects) := by
  cases c with
  | insert key entry =>
    simp only [TableCall.apply, insert] at hc
    split at hc
    · cases hc
    split at hc
    · cases hc
    · cases hc
      exact h.addNew entry
  | update key entry condition =>
    simp only [TableCall.apply, update] at hc
    split at hc
    · cases hc
    split at hc
    · cases hc
    cases hc
    obtain ⟨hshows, hne⟩ := select_spec t₀ db key condition
    apply h.changeRows (fun s hs => (hshows s hs).1) hne _ (fun k rows => rfl) (.inr ⟨rfl, htracked.2⟩)
    intro row
    refine ⟨Row.status_setFields.2, Row.getElem?_setFields_of_notMem ?_⟩
    intro hmem
    obtain ⟨f, hf, hname⟩ := mem_map.mp hmem
    exact (of_decide_eq_true (mem_filter.mp hf).2).2 hname
  | remove key condition =>
    simp only [TableCall.apply, remove] at hc
    split at hc
    · cases hc
    cases hc
    obtain ⟨hshows, hne⟩ := select_spec t₀ db key condition
    exact h.changeRows (fun s hs => (hshows s hs).1) hne (fun row => ⟨rfl, rfl⟩) (fun k rows => rfl)
      (.inl fun row => rfl)

section

variable {condition : Condition}

lemma map_filterMap_eq {α β γ : Type*} {l : List α} {f : α → Option β} {g : β → γ} {p : α → Bool} {r : α → γ}
    (h : ∀ x ∈ l, (f x).map g = if p x then some (r x) else none) : (l.filterMap f).map g = (l.filter p).map r := by
  rw [map_filterMap, ← filterMap_eq_filter, map_filterMap]
  apply filterMap_congr
  intro x hx
  rw [h x hx, Option.guard]
  split <;> rfl

lemma map_fromDB : ((db.select t.info key condition).filterMap (t.fromDB condition)).map (fun s => s.toRow) =
    ((db.select t.info key condition).map t.current).filter condition.process := by
  rw [List.filter_map]
  apply map_filterMap_eq
  intro e he
  have hp := (List.mem_filter.mp he).2
  cases hrow : t.dirty[e.id]? with
  | none => simp [fromDB, current, lookup, hrow, hp]
  | some =>
    simp only [fromDB, current, lookup, hrow, comp_apply, Option.getD_some]
    split <;> rfl

lemma map_fromNew (key : Str) (rows : List Row) : (rows.zipIdx.filterMap (fromNew condition)).map (fun s => s.toRow) =
      ((liveRows key rows).map Prod.snd).filter condition.process := by
  unfold liveRows
  rw [List.map_map, List.filter_map, List.filter_filter]
  apply map_filterMap_eq
  intro r _
  unfold fromNew
  by_cases hp : condition.process r.1 = true
  · simp [hp, (Condition.not_deleted_of_process _ hp).2]
  · simp [hp]

variable (h : Overlaid db t effects)

include h

lemma mem_updated_iff {id : Nat} : (id ∈ t.updatedIds key ∧ id ∉ t.processed (db.select t.info key condition) ∧
        ∃ row, t.dirty[id]? = some row ∧ condition.process row = true) ↔
      ∃ e ∈ db.rows t.info.name key, condition.process e.toRow = false ∧
        condition.process (t.current e) = true ∧ e.id = id := by
  have hcurrent : ∀ e row, t.dirty[e.id]? = some row → t.current e = row := by
    intro e row hrow
    simp [current, lookup, hrow]
  constructor
  · rintro ⟨hid, hnot, row, hrow, hp⟩
    obtain ⟨e, he, rfl⟩ := h.known key id hid
    refine ⟨e, he, ?_, (hcurrent e row hrow).symm ▸ hp, rfl⟩
    by_contra hpe
    rw [Bool.not_eq_false] at hpe
    exact hnot (mem_processed.mpr ⟨⟨e, mem_filter.mpr ⟨he, hpe⟩, rfl⟩, by simp [hrow]⟩)
  · rintro ⟨e, he, hpe, hp, rfl⟩
    cases hrow : t.dirty[e.id]? with
    | none =>
      have hsame : t.current e = e.toRow := by simp [current, lookup, hrow]
      rw [hsame, hpe] at hp
      cases hp
    | some row =>
      rw [hcurrent e row hrow] at hp
      have hnormal := (Condition.not_deleted_of_process _ hp).1
      refine ⟨?_, ?_, row, rfl, hp⟩
      · apply (h.complete key e he row hrow hnormal).resolve_right
        rintro rfl
        rw [hpe] at hp
        cases hp
      intro hmem
      obtain ⟨⟨e', he', hid⟩, -⟩ := mem_processed.mp hmem
      obtain ⟨hdb, hp'⟩ := mem_filter.mp he'
      rw [(db.id_unique _ _ _ e' hdb e he hid).2, hpe] at hp'
      cases hp'

lemma map_fromUpdated : ((((t.updatedIds key).toList.filter fun id =>
        id ∉ t.processed (db.select t.info key condition)).filterMap (t.fromUpdated condition)).map
        fun s => s.toRow).Perm
      ((((db.rows t.info.name key).filter fun e => !condition.process e.toRow).map t.current).filter
        condition.process) := by
  have hleft : (((t.updatedIds key).toList.filter fun id =>
      id ∉ t.processed (db.select t.info key condition)).filterMap (t.fromUpdated condition)).map (fun s => s.toRow) =
      (((t.updatedIds key).toList.filter fun id => id ∉ t.processed (db.select t.info key condition)).filter
        fun id => t.dirty[id]?.any condition.process).map fun id => t.dirty[id]?.getD {} := by
    apply map_filterMap_eq
    intro id _
    unfold fromUpdated
    cases t.dirty[id]? with
    | none => simp
    | some =>
      dsimp only [Option.any_some, Option.getD_some]
      split <;> rfl
  have hright : (((db.rows t.info.name key).filter fun e => !condition.process e.toRow).map
      t.current).filter condition.process =
      ((((db.rows t.info.name key).filter fun e => !condition.process e.toRow).filter fun e =>
        condition.process (t.current e)).map Entry.id).map fun id => t.dirty[id]?.getD {} := by
    rw [List.filter_map, List.map_map]
    apply List.map_congr_left
    intro e he
    obtain ⟨he, hp⟩ := List.mem_filter.mp he
    obtain ⟨he, hpe⟩ := List.mem_filter.mp he
    obtain ⟨-, -, row, hrow, -⟩ := h.mem_updated_iff.mpr ⟨e, he, by simpa using hpe, hp, rfl⟩
    simp [current, lookup, hrow]
  rw [hleft, hright]
  apply List.Perm.map
  apply (List.perm_ext_iff_of_nodup ?_ ?_).mpr
  · intro id
    simp only [List.mem_filter, ExtTreeSet.mem_toList, List.mem_map, decide_eq_true_eq, and_assoc,
      Bool.not_eq_true', Option.any_eq_true]
    exact h.mem_updated_iff
  · have hnodup : (t.updatedIds key).toList.Nodup :=
      ExtTreeSet.ordered_toList.imp fun hlt heq => by simp [heq] at hlt
    exact (hnodup.filter _).filter _
  · apply List.Nodup.map_on
    · intro e he e' he' hid
      have hmem := List.mem_of_mem_filter (List.mem_of_mem_filter he)
      have hmem' := List.mem_of_mem_filter (List.mem_of_mem_filter he')
      exact (db.id_unique _ _ _ e hmem e' hmem' hid).2
    · exact ((db.nodup _ _).filter _).filter _

lemma matching_perm (key : Str) (condition : Condition) : ((t.matching db key condition).map fun s => s.toRow).Perm
      (((logicalRows db t.info.name effects key).map Prod.snd).filter condition.process) := by
  rw [← h.rows]
  unfold matching MemoryTable2.rows
  rw [List.map_append, List.map_append, List.map_append, List.filter_append, map_fromDB, map_fromNew]
  apply List.Perm.append_right
  rw [List.map_map]
  have hsplit := (List.filter_append_perm (fun e : Entry => condition.process e.toRow)
    (db.rows t.info.name key)).map t.current |>.filter condition.process
  rw [List.map_append, List.filter_append] at hsplit
  exact (List.Perm.append_left _ h.map_fromUpdated).trans hsplit

end

end Overlaid

end MemoryTable2

namespace Traced

open MemoryTableFactory2

variable {db : StateStorage} {f f' : MemoryTableFactory2} {effects : List (Str × Effect)}

/-- The tables are those of a run from tables just opened, possibly after rollbacks. -/
inductive Past (db : StateStorage) : MemoryTableFactory2 → List (Str × Effect) → Prop where
  | start {f₀ f : MemoryTableFactory2} (hlog : f₀.changeLog = [])
      (hopened : ∀ (name : Str) t, f₀.name2Table[name]? = some t → t = .opened t.info)
      (h : Restored db univ f₀ f) : Past db f []
  | call {f f' : MemoryTableFactory2} {effects : List (Str × Effect)} {c : Str × TableCall}
      {t t' : MemoryTable2} {change : Change} (hpast : Past db f effects)
      (ht : f.name2Table[c.1]? = some t) (happly : c.2.apply db t = .ok (t', change))
      (htracked : c.2.Tracked db t) (h : Restored db univ (f.call db c) f') :
      Past db f' ((c.1, c.2.effect db t) :: effects)

lemma effectsOn_cons (name : Str) (e : Str × Effect) : effectsOn (e :: effects) name =
    if e.1 = name then e.2 :: effectsOn effects name else effectsOn effects name := by
  unfold effectsOn
  by_cases h : e.1 = name
  · simp [h]
  · simp [h]

section

variable (h : Past db f effects)

include h

lemma Past.restored (hrest : Restored db univ f f') : Past db f' effects := by
  cases h with
  | start hlog hopened h => exact .start hlog hopened (h.trans hrest)
  | call hpast ht happly htracked h => exact .call hpast ht happly htracked (h.trans hrest)

lemma Past.undoLast : Past db f.undoLast effects.tail := by
  cases h with
  | start hlog hopened h =>
    have hsame : f.undoLast = f := by
      unfold undoLast
      rw [h.log, hlog]
    rw [hsame]
    exact .start hlog hopened h
  | @call f₀ _ _ c t t' change hpast ht happly htracked h =>
    have hwrites : f₀.WritesKnown db c := by
      intro t₀ ht₀
      cases ht.symm.trans ht₀
      exact htracked.1
    have hlen : f.changeLog.length = f₀.savepoint + 1 := by
      rw [h.log, call_of_apply ht happly]
      rfl
    have hrest := Restored.of_call (fun _ => hwrites) h
    rw [rollback_succ hlen] at hrest
    exact hpast.restored hrest

lemma Past.rollback (savepoint : Nat) :
    Past db (f.rollback savepoint) (effects.drop (f.changeLog.length - savepoint)) := by
  unfold MemoryTableFactory2.rollback
  generalize f.changeLog.length - savepoint = n
  induction n generalizing f effects with
  | zero => exact h
  | succ n ih =>
    rw [iterate_succ_apply, ← drop_tail]
    exact ih h.undoLast

lemma Past.effectsOn_nil {name : Str} (hnone : f.name2Table[name]? = none) : effectsOn effects name = [] := by
  induction h with
  | start => rfl
  | @call f₀ f₁ effects c t₀ t₁ change _ ht₀ happly _ h ih =>
    rw [call_of_apply ht₀ happly] at h
    have hbefore : (f₀.name2Table.insert c.1 t₁)[name]? = none := by
      cases hopen : (f₀.name2Table.insert c.1 t₁)[name]? with
      | none => rfl
      | some t =>
        obtain ⟨t', ht', -⟩ := h.kept name (mem_univ name) t hopen
        exact absurd (hnone.symm.trans ht') (by simp)
    have hname : c.1 ≠ name := by
      rintro rfl
      rw [ExtTreeMap.getElem?_insert_self] at hbefore
      cases hbefore
    rw [OrderedMap.getElem?_insert_of_ne hname] at hbefore
    rw [effectsOn_cons, if_neg hname, ih hbefore]

lemma Past.overlaid (name : Str) (t : MemoryTable2) (ht : f.name2Table[name]? = some t) :
    Overlaid db t (effectsOn effects name) := by
  induction h generalizing name t with
  | @start f₀ _ _ hopened h =>
    cases h0 : f₀.name2Table[name]? with
    | none => exact .of_restored (.opened t.info) (h.opened name (mem_univ name) t h0 ht)
    | some t₀ =>
      obtain ⟨t', ht', hrest⟩ := h.kept name (mem_univ name) t₀ h0
      cases ht'.symm.trans ht
      rw [hopened name t₀ h0] at hrest
      exact .of_restored (.opened t₀.info) hrest
  | @call f₀ _ effects c t₀ t₁ change hpast ht₀ happly htracked h ih =>
    rw [call_of_apply ht₀ happly] at h
    rw [effectsOn_cons]
    by_cases hname : c.1 = name
    · subst hname
      rw [if_pos rfl]
      obtain ⟨t', ht', hrest⟩ := h.kept c.1 (mem_univ c.1) t₁ ExtTreeMap.getElem?_insert_self
      cases ht'.symm.trans ht
      exact ((ih c.1 t₀ ht₀).of_apply happly htracked).of_restored hrest
    · rw [if_neg hname]
      have hother := OrderedMap.getElem?_insert_of_ne (m := f₀.name2Table) (v := t₁) hname
      cases h0 : f₀.name2Table[name]? with
      | none =>
        rw [hpast.effectsOn_nil h0]
        exact .of_restored (.opened t.info) (h.opened name (mem_univ name) t (hother.trans h0) ht)
      | some t₂ =>
        obtain ⟨t', ht', hrest⟩ := h.kept name (mem_univ name) t₂ (hother.trans h0)
        cases ht'.symm.trans ht
        exact (ih name t₂ h0).of_restored hrest

end

lemma Past.step {s : Traced} (h : Past db s.factory s.effects) {op : TableOp} (hop : s.Tracked db op) :
    Past db (s.step db op).factory (s.step db op).effects := by
  cases op with
  | call c =>
    unfold Traced.step
    dsimp only
    cases ht : s.factory.name2Table[c.1]? with
    | none => exact h
    | some t =>
      cases happly : c.2.apply db t with
      | error =>
        dsimp only
        rw [happly]
        exact h
      | ok =>
        dsimp only
        rw [happly]
        exact .call h ht happly (hop t ht) (.refl _)
  | rollback savepoint => exact h.rollback savepoint

def sampleDb : StateStorage :=
  oneRow (keyField.insert "a".toList "7".toList)

lemma opened_oneTable (name : Str) (t : MemoryTable2) (ht : oneTable.name2Table[name]? = some t) :
    t = .opened t.info := by
  simp only [oneTable, ExtTreeMap.getElem?_insert, ExtTreeMap.getElem?_empty] at ht
  split at ht
  · cases ht
    rfl
  · cases ht

end Traced

end FiscoBcos
