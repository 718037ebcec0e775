import FiscoBcos.Storage.Table

/-!
# Changed rows of a commit

The part of `CachedStorage::commit` that takes the changed rows of a table with cache. RocksDB keeps all rows of a key in
one value, so with the first changed row of a key the other rows of the key are added for the backend.
-/

namespace FiscoBcos

open List Function

/-- `setField` for all fields of the changed row, and `setStatus`. -/
def Entry.overwrite (e row : Entry) : Entry :=
  { row with toRow := (row.toRow.setFields e.fields.toList).setStatus e.status }

/-- The rows of a table by their keys, in the cache or else as the backend returns them, and what is collected for the
backend: the changed rows and the ones that are added. -/
structure CommitData where
  caches : Str → List Entry
  commitEntries : List Entry := []
  lostEntries : List Entry := []
  addtionKey : List Str := []
  duplicateIDs : List Nat := []

/-- `std::lower_bound` by the ids. -/
def lowerBound (entries : List Entry) (id : Nat) : Nat :=
  (entries.takeWhile fun e => e.id < id).length

namespace CommitData

variable (field : Str) (p : CommitData)

def addEntry (key : Str) (row : Entry) (others : List Entry) : CommitData :=
  if key ∈ p.addtionKey then
    { p with commitEntries := p.commitEntries ++ [row], duplicateIDs := p.duplicateIDs ++ [row.id] }
  else
    { p with
      commitEntries := p.commitEntries ++ [row]
      lostEntries := p.lostEntries ++ others
      addtionKey := p.addtionKey ++ [key] }

/-- One changed row. `none` is the fatal error that the row has no id or is not found. -/
def commitDirtyEntry (e : Entry) : Option CommitData :=
  let key := e.getField field
  let i := lowerBound (p.caches key) e.id
  ((p.caches key)[i]?.filter fun row => e.id ≠ 0 ∧ row.id = e.id).map fun row =>
    { p with caches := update p.caches key ((p.caches key).modify i e.overwrite) }.addEntry key (e.overwrite row)
      ((p.caches key).eraseIdx i)

/-- The added rows that have changed themselves are marked as deleted. -/
def dirtyEntries : List Entry :=
  p.commitEntries ++ p.lostEntries.map fun e => if e.id ∈ p.duplicateIDs then { e with deleted := true } else e

/-- The rows of a key that the backend writes. -/
def dirtyOf (key : Str) : List Entry :=
  p.dirtyEntries.filter fun e => !e.deleted && e.getField field = key

end CommitData

/-- The rows of a table: in the order of their ids under each key, and no id under two keys. -/
structure FiledRows (field : Str) (rows : Str → List Entry) : Prop where
  sorted : ∀ k, (rows k).Pairwise fun a b => a.id < b.id
  deleted : ∀ k, ∀ r ∈ rows k, r.deleted = false
  key : ∀ k, ∀ r ∈ rows k, r.fields[field]? = some k
  apart : ∀ k k', ∀ r ∈ rows k, ∀ r' ∈ rows k', r.id = r'.id → k = k'

section

variable {field key : Str} {e r : Entry} {rows : List Entry}

lemma getField_of_getElem? (h : e.fields[field]? = some key) : e.getField field = key := by
  unfold Row.getField
  rw [Std.ExtTreeMap.getD_eq_getD_getElem?, h]
  rfl

lemma Entry.getElem?_overwrite (h : e.fields[field]? = some key) : (e.overwrite r).fields[field]? = some key := by
  apply Row.getElem?_setFields
  · intro f hf hfield
    have hget := Std.ExtTreeMap.mem_toList_iff_getElem?_eq_some.mp hf
    rw [hfield, h] at hget
    exact (Option.some.inj hget).symm
  · exact mem_map.mpr ⟨(field, key), Std.ExtTreeMap.mem_toList_iff_getElem?_eq_some.mpr h, rfl⟩

lemma Entry.deleted_overwrite : (e.overwrite r).deleted = r.deleted :=
  Row.status_setFields.2

/-- `overwrite` for the row with the id of the changed row. -/
def overwriteRows (e : Entry) (rows : List Entry) : List Entry :=
  rows.map fun r => if r.id = e.id then e.overwrite r else r

lemma overwriteRows_split (h : rows.Pairwise fun a b => a.id < b.id) (hr : r ∈ rows) (hid : r.id = e.id) :
    ∃ before after, rows = before ++ r :: after ∧ overwriteRows e rows = before ++ e.overwrite r :: after ∧
      (rows.filter fun x => x.id ≠ e.id) = before ++ after ∧ lowerBound rows e.id = before.length := by
  obtain ⟨before, after, rfl⟩ := append_of_mem hr
  obtain ⟨-, hcons, hcross⟩ := pairwise_append.mp h
  have hbefore : ∀ x ∈ before, x.id < e.id := fun x hx => hid ▸ hcross x hx r mem_cons_self
  have hafter : ∀ x ∈ after, e.id < x.id := fun x hx => hid ▸ (pairwise_cons.mp hcons).1 x hx
  refine ⟨before, after, rfl, ?_, ?_, ?_⟩
  · unfold overwriteRows
    rw [map_append, map_cons, if_pos hid, map_congr_left fun x hx => if_neg (hbefore x hx).ne,
      map_congr_left fun x hx => if_neg (hafter x hx).ne', map_id', map_id']
  · rw [filter_append, filter_cons_of_neg (by simp [hid]), filter_eq_self.mpr fun x hx => by simpa using (hbefore x hx).ne,
      filter_eq_self.mpr fun x hx => by simpa using (hafter x hx).ne']
  · unfold lowerBound
    rw [takeWhile_append_of_pos (by simpa using hbefore), takeWhile_cons_of_neg (by simp [hid]), append_nil]

/-- The row with the id is found, and what is done to the rows is done to it. -/
lemma lowerBound_spec (h : rows.Pairwise fun a b => a.id < b.id) (hr : r ∈ rows) (hid : r.id = e.id) :
    rows[lowerBound rows e.id]? = some r ∧ rows.modify (lowerBound rows e.id) e.overwrite = overwriteRows e rows ∧
      rows.eraseIdx (lowerBound rows e.id) = rows.filter fun x => x.id ≠ e.id := by
  obtain ⟨before, after, hrows, hoverwrite, hothers, hbound⟩ := overwriteRows_split h hr hid
  rw [hbound, hoverwrite, hothers, hrows]
  refine ⟨by simp, modifyTailIdx_add (modifyHead _) 0 before (r :: after), ?_⟩
  rw [eraseIdx_append_of_length_le le_rfl, Nat.sub_self]
  rfl

lemma overwriteRows_perm (h : rows.Pairwise fun a b => a.id < b.id) (hr : r ∈ rows) (hid : r.id = e.id) :
    (overwriteRows e rows).Perm (e.overwrite r :: rows.filter fun x => x.id ≠ e.id) := by
  obtain ⟨before, after, -, hoverwrite, hothers, -⟩ := overwriteRows_split h hr hid
  rw [hoverwrite, hothers]
  exact perm_middle

lemma exists_id_overwriteRows {id : Nat} : (∃ x ∈ overwriteRows e rows, x.id = id) ↔ ∃ x ∈ rows, x.id = id := by
  unfold overwriteRows
  simp only [mem_map, exists_exists_and_eq_and]
  refine exists_congr fun x => and_congr_right fun _ => ?_
  split <;> rfl

lemma exists_id_update {caches : Str → List Entry} {k : Str} {id : Nat} :
    (∃ x ∈ update caches key (overwriteRows e (caches key)) k, x.id = id) ↔ ∃ x ∈ caches k, x.id = id := by
  by_cases hk : k = key
  · subst hk
    rw [update_self, exists_id_overwriteRows]
  · rw [update_of_ne hk]

lemma FiledRows.overwrite {caches : Str → List Entry} (h : FiledRows field caches) (he : e.fields[field]? = some key) :
    FiledRows field (update caches key (overwriteRows e (caches key))) := by
  have hback : ∀ k, ∀ x ∈ update caches key (overwriteRows e (caches key)) k, ∃ y ∈ caches k, y.id = x.id :=
    fun k x hx => exists_id_update.mp ⟨x, hx, rfl⟩
  have hrow : ∀ k, ∀ x ∈ update caches key (overwriteRows e (caches key)) k,
      x.deleted = false ∧ x.fields[field]? = some k := by
    intro k x hx
    by_cases hk : k = key
    · subst hk
      rw [update_self] at hx
      obtain ⟨y, hy, rfl⟩ := mem_map.mp hx
      split
      · exact ⟨Entry.deleted_overwrite.trans (h.deleted k y hy), Entry.getElem?_overwrite he⟩
      · exact ⟨h.deleted k y hy, h.key k y hy⟩
    · rw [update_of_ne hk] at hx
      exact ⟨h.deleted k x hx, h.key k x hx⟩
  refine ⟨fun k => ?_, fun k x hx => (hrow k x hx).1, fun k x hx => (hrow k x hx).2, fun k k' x hx x' hx' hid => ?_⟩
  · by_cases hk : k = key
    · subst hk
      rw [update_self]
      unfold overwriteRows
      rw [pairwise_map]
      refine (h.sorted k).imp fun hab => ?_
      split <;> split <;> exact hab
    · rw [update_of_ne hk]
      exact h.sorted k
  · obtain ⟨y, hy, hyid⟩ := hback k x hx
    obtain ⟨y', hy', hyid'⟩ := hback k' x' hx'
    exact h.apart k k' y hy y' hy' (hyid.trans (hid.trans hyid'.symm))

end

namespace CommitData

variable {field key : Str} {p : CommitData} {e r : Entry}

/-- For each key of which a row has changed, what the backend writes are the rows of the cache. -/
structure Tracks (field : Str) (p : CommitData) : Prop where
  keyed : FiledRows field p.caches
  committed : ∀ x ∈ p.commitEntries, x.deleted = false ∧ x.getField field ∈ p.addtionKey
  lost : ∀ x ∈ p.lostEntries, x.deleted = false ∧ x.getField field ∈ p.addtionKey
  duplicates : ∀ id ∈ p.duplicateIDs, ∃ k ∈ p.addtionKey, ∃ x ∈ p.caches k, x.id = id
  rows : ∀ k ∈ p.addtionKey, (p.dirtyOf field k).Perm (p.caches k)

lemma dirtyOf_eq (hcommitted : ∀ x ∈ p.commitEntries, x.deleted = false) (hlost : ∀ x ∈ p.lostEntries, x.deleted = false)
    (k : Str) :
    p.dirtyOf field k = (p.commitEntries.filter fun x => x.getField field = k) ++
      p.lostEntries.filter fun x => x.id ∉ p.duplicateIDs ∧ x.getField field = k := by
  unfold dirtyOf dirtyEntries
  rw [filter_append, filter_map]
  congr 1
  · refine filter_congr fun x hx => ?_
    simp [hcommitted x hx]
  · have hfilter : p.lostEntries.filter ((fun e : Entry => !e.deleted && decide (e.getField field = k)) ∘
        fun e => if e.id ∈ p.duplicateIDs then { e with deleted := true } else e) =
        p.lostEntries.filter fun x => x.id ∉ p.duplicateIDs ∧ x.getField field = k := by
      refine filter_congr fun x hx => ?_
      by_cases hdup : x.id ∈ p.duplicateIDs <;> simp [hdup, hlost x hx]
    rw [hfilter]
    refine (map_congr_left fun x hx => ?_).trans (map_id _)
    have hkept := (mem_filter.mp hx).2
    rw [decide_eq_true_eq] at hkept
    exact if_neg hkept.1

section

variable (h : Tracks field p) (hkey : e.fields[field]? = some key) (hr : r ∈ p.caches key) (hid : r.id = e.id)

include h hkey hr hid

lemma commitDirtyEntry_eq (hpos : e.id ≠ 0) : p.commitDirtyEntry field e = some
    ({ p with caches := update p.caches key (overwriteRows e (p.caches key)) }.addEntry key (e.overwrite r)
      ((p.caches key).filter fun x => x.id ≠ e.id)) := by
  obtain ⟨hget, hmodify, herase⟩ := lowerBound_spec (h.keyed.sorted key) hr hid
  unfold commitDirtyEntry
  simp only [getField_of_getElem? hkey, hget, hmodify, herase]
  rw [Option.filter_some_pos (by simp [hpos, hid])]
  rfl

lemma Tracks.first (hnew : key ∉ p.addtionKey) : Tracks field
    { p with
      caches := update p.caches key (overwriteRows e (p.caches key))
      commitEntries := p.commitEntries ++ [e.overwrite r]
      lostEntries := p.lostEntries ++ (p.caches key).filter fun x => x.id ≠ e.id
      addtionKey := p.addtionKey ++ [key] } := by
  have hrow := getField_of_getElem? (Entry.getElem?_overwrite (r := r) hkey)
  have hothers : ∀ x ∈ (p.caches key).filter fun x => x.id ≠ e.id,
      x.deleted = false ∧ x.getField field = key ∧ x.id ∉ p.duplicateIDs := by
    intro x hx
    have hx := mem_of_mem_filter hx
    refine ⟨h.keyed.deleted key x hx, getField_of_getElem? (h.keyed.key key x hx), fun hdup => ?_⟩
    obtain ⟨k, hk, y, hy, hyid⟩ := h.duplicates _ hdup
    exact hnew (h.keyed.apart k key y hy x hx hyid ▸ hk)
  have hfiled : ∀ x : Entry, x.deleted = false ∧ x.getField field ∈ p.addtionKey →
      x.deleted = false ∧ x.getField field ∈ p.addtionKey ++ [key] := fun x hx => ⟨hx.1, mem_append_left _ hx.2⟩
  have hcommitted : ∀ x ∈ p.commitEntries ++ [e.overwrite r],
      x.deleted = false ∧ x.getField field ∈ p.addtionKey ++ [key] := by
    rw [forall_mem_append, forall_mem_singleton]
    exact ⟨fun x hx => hfiled x (h.committed x hx), Entry.deleted_overwrite.trans (h.keyed.deleted key r hr),
      mem_append_right _ (mem_singleton.mpr hrow)⟩
  have hlost : ∀ x ∈ p.lostEntries ++ (p.caches key).filter fun x => x.id ≠ e.id,
      x.deleted = false ∧ x.getField field ∈ p.addtionKey ++ [key] := by
    rw [forall_mem_append]
    exact ⟨fun x hx => hfiled x (h.lost x hx),
      fun x hx => ⟨(hothers x hx).1, mem_append_right _ (mem_singleton.mpr (hothers x hx).2.1)⟩⟩
  refine ⟨h.keyed.overwrite hkey, hcommitted, hlost, fun id hdup => ?_, fun k hk => ?_⟩
  · obtain ⟨k, hk, hx⟩ := h.duplicates id hdup
    exact ⟨k, mem_append_left _ hk, exists_id_update.mpr hx⟩
  rw [dirtyOf_eq (fun x hx => (hcommitted x hx).1) (fun x hx => (hlost x hx).1)]
  dsimp only
  rw [filter_append, filter_append]
  by_cases hk' : k = key
  · subst hk'
    have hc : (p.commitEntries.filter fun x => x.getField field = k) = [] :=
      filter_eq_nil_iff.mpr fun x hx hx' => hnew (of_decide_eq_true hx' ▸ (h.committed x hx).2)
    have hl : (p.lostEntries.filter fun x => x.id ∉ p.duplicateIDs ∧ x.getField field = k) = [] :=
      filter_eq_nil_iff.mpr fun x hx hx' => hnew ((of_decide_eq_true hx').2 ▸ (h.lost x hx).2)
    have hone : ([e.overwrite r].filter fun x => x.getField field = k) = [e.overwrite r] := by simp [hrow]
    rw [update_self, hc, hl, hone, filter_eq_self.mpr fun x hx => decide_eq_true (hothers x hx).2.symm]
    exact (overwriteRows_perm (h.keyed.sorted k) hr hid).symm
  · have hold : k ∈ p.addtionKey := (mem_append.mp hk).resolve_right fun hk => hk' (mem_singleton.mp hk)
    have hrows := h.rows k hold
    rw [dirtyOf_eq (fun x hx => (h.committed x hx).1) (fun x hx => (h.lost x hx).1)] at hrows
    have hnone : ([e.overwrite r].filter fun x => x.getField field = k) = [] := by simp [hrow, Ne.symm hk']
    have hskip : (((p.caches key).filter fun x => x.id ≠ e.id).filter fun x =>
        x.id ∉ p.duplicateIDs ∧ x.getField field = k) = [] :=
      filter_eq_nil_iff.mpr fun x hx hx' => hk' ((of_decide_eq_true hx').2.symm.trans (hothers x hx).2.1)
    rw [update_of_ne hk', hnone, hskip, append_nil, append_nil]
    exact hrows

lemma Tracks.again (hold : key ∈ p.addtionKey) (hfirst : ∀ x ∈ p.commitEntries, x.id ≠ e.id) : Tracks field
    { p with
      caches := update p.caches key (overwriteRows e (p.caches key))
      commitEntries := p.commitEntries ++ [e.overwrite r]
      duplicateIDs := p.duplicateIDs ++ [(e.overwrite r).id] } := by
  have hrow := getField_of_getElem? (Entry.getElem?_overwrite (r := r) hkey)
  have hcommitted : ∀ x ∈ p.commitEntries ++ [e.overwrite r], x.deleted = false ∧ x.getField field ∈ p.addtionKey := by
    rw [forall_mem_append, forall_mem_singleton]
    exact ⟨h.committed, Entry.deleted_overwrite.trans (h.keyed.deleted key r hr), hrow ▸ hold⟩
  refine ⟨h.keyed.overwrite hkey, hcommitted, h.lost, fun id hdup => ?_, fun k hk => ?_⟩
  · rcases mem_append.mp hdup with hdup | hdup
    · obtain ⟨k, hk, hx⟩ := h.duplicates id hdup
      exact ⟨k, hk, exists_id_update.mpr hx⟩
    · exact ⟨key, hold, exists_id_update.mpr ⟨r, hr, (mem_singleton.mp hdup).symm⟩⟩
  have hrows := h.rows k hk
  rw [dirtyOf_eq (fun x hx => (h.committed x hx).1) (fun x hx => (h.lost x hx).1)] at hrows
  refine .trans (.of_eq (dirtyOf_eq ?_ ?_ k)) ?_
  · exact fun x hx => (hcommitted x hx).1
  · exact fun x hx => (h.lost x hx).1
  dsimp only
  rw [filter_append]
  by_cases hk' : k = key
  · subst hk'
    have hone : ([e.overwrite r].filter fun x => x.getField field = k) = [e.overwrite r] := by simp [hrow]
    have hothers := hrows.filter fun x => x.id ≠ e.id
    rw [filter_append, filter_eq_self.mpr fun x hx => decide_eq_true (hfirst x (mem_of_mem_filter hx)), filter_filter]
      at hothers
    rw [update_self, hone, append_assoc]
    refine perm_middle.trans (.trans (.cons _ ?_) (overwriteRows_perm (h.keyed.sorted k) hr hid).symm)
    refine .trans (.of_eq (congrArg _ (filter_congr fun x _ => ?_))) hothers
    have hrid : (e.overwrite r).id = e.id := hid
    simp [hrid, and_comm, and_assoc]
  · have hnone : ([e.overwrite r].filter fun x => x.getField field = k) = [] := by simp [hrow, Ne.symm hk']
    rw [update_of_ne hk', hnone, append_nil]
    refine .trans (.of_eq (congrArg _ (filter_congr fun x hx => ?_))) hrows
    rw [decide_eq_decide]
    refine ⟨fun hx' => ⟨fun hdup => hx'.1 (mem_append_left _ hdup), hx'.2⟩, fun hx' => ⟨fun hdup => ?_, hx'.2⟩⟩
    -- a row of another key has another id
    have hid' := mem_singleton.mp ((mem_append.mp hdup).resolve_left hx'.1)
    have hmem := hrows.subset (mem_append_right _ (mem_filter.mpr ⟨hx, decide_eq_true hx'⟩))
    exact hk' (h.keyed.apart k key x hmem r hr hid')

lemma Tracks.commitDirtyEntry (hpos : e.id ≠ 0) (hfirst : ∀ x ∈ p.commitEntries, x.id ≠ e.id) :
    ∃ p', p.commitDirtyEntry field e = some p' ∧ Tracks field p' ∧ key ∈ p'.addtionKey ∧
      p.addtionKey ⊆ p'.addtionKey ∧ p'.commitEntries.map Entry.id = p.commitEntries.map Entry.id ++ [e.id] ∧
      ∀ k id, (∃ x ∈ p'.caches k, x.id = id) ↔ ∃ x ∈ p.caches k, x.id = id := by
  refine ⟨_, commitDirtyEntry_eq h hkey hr hid hpos, ?_⟩
  have hids : (p.commitEntries ++ [e.overwrite r]).map Entry.id = p.commitEntries.map Entry.id ++ [e.id] := by
    rw [map_append, ← hid]
    rfl
  unfold addEntry
  by_cases hold : key ∈ p.addtionKey
  · rw [if_pos hold]
    exact ⟨h.again hkey hr hid hold hfirst, hold, fun _ hk => hk, hids, fun k id => exists_id_update⟩
  · rw [if_neg hold]
    exact ⟨h.first hkey hr hid hold, mem_append_right _ (mem_singleton_self key), fun _ hk => mem_append_left _ hk, hids,
      fun k id => exists_id_update⟩

end

lemma Tracks.commitDirtyEntries (es : List Entry) (h : Tracks field p) (hids : (es.map Entry.id).Nodup)
    (hfirst : ∀ e ∈ es, ∀ x ∈ p.commitEntries, x.id ≠ e.id)
    (hes : ∀ e ∈ es, e.id ≠ 0 ∧ ∃ k, e.fields[field]? = some k ∧ ∃ r ∈ p.caches k, r.id = e.id) :
    ∃ p', es.foldlM (CommitData.commitDirtyEntry field) p = some p' ∧ Tracks field p' ∧ p.addtionKey ⊆ p'.addtionKey ∧
      ∀ e ∈ es, e.getField field ∈ p'.addtionKey := by
  induction es generalizing p with
  | nil => exact ⟨p, rfl, h, fun _ hk => hk, forall_mem_nil _⟩
  | cons e es ih =>
    obtain ⟨⟨hpos, key, hkey, r, hr, hid⟩, hrest⟩ := forall_mem_cons.mp hes
    obtain ⟨hnew, hnodup⟩ := nodup_cons.mp hids
    obtain ⟨p₁, heq, hp₁, hmem, hsub, hcommit, hsame⟩ :=
      h.commitDirtyEntry hkey hr hid hpos (hfirst e mem_cons_self)
    have hfirst₁ : ∀ e' ∈ es, ∀ x ∈ p₁.commitEntries, x.id ≠ e'.id := by
      intro e' he' x hx hx'
      have hx := mem_map_of_mem (f := Entry.id) hx
      rw [hcommit, mem_append, mem_singleton] at hx
      rcases hx with hx | hx
      · obtain ⟨y, hy, hyid⟩ := mem_map.mp hx
        exact hfirst e' (mem_cons_of_mem _ he') y hy (hyid.trans hx')
      · exact hnew (mem_map.mpr ⟨e', he', hx'.symm.trans hx⟩)
    obtain ⟨p₂, heq₂, hp₂, hsub₂, hall⟩ := ih hp₁ hnodup hfirst₁ fun e' he' => by
      obtain ⟨hpos', k, hk, hx⟩ := hrest e' he'
      exact ⟨hpos', k, hk, (hsame k e'.id).mpr hx⟩
    refine ⟨p₂, ?_, hp₂, fun k hk => hsub₂ (hsub hk), forall_mem_cons.mpr ⟨?_, hall⟩⟩
    · rw [foldlM_cons, heq]
      exact heq₂
    · rw [getField_of_getElem? hkey]
      exact hsub₂ hmem

/-- In whatever order the changed rows of a table are taken, for each of their keys what the backend writes are the rows
that the cache has then, each id once. -/
theorem dirtyEntries_complete (field : Str) (rows : Str → List Entry) (hrows : FiledRows field rows) (es : List Entry)
    (hids : (es.map Entry.id).Nodup)
    (hes : ∀ e ∈ es, e.id ≠ 0 ∧ ∃ k, e.fields[field]? = some k ∧ ∃ r ∈ rows k, r.id = e.id) :
    ∃ p, es.foldlM (commitDirtyEntry field) { caches := rows } = some p ∧ ∀ e ∈ es,
      (p.dirtyOf field (e.getField field)).Perm (p.caches (e.getField field)) ∧
        ((p.dirtyOf field (e.getField field)).map Entry.id).Nodup := by
  have hstart : Tracks field { caches := rows } :=
    ⟨hrows, forall_mem_nil _, forall_mem_nil _, forall_mem_nil _, forall_mem_nil _⟩
  obtain ⟨p, heq, hp, -, hall⟩ := hstart.commitDirtyEntries es hids (fun _ _ => forall_mem_nil _) hes
  refine ⟨p, heq, fun e he => ?_⟩
  have hperm := hp.rows _ (hall e he)
  refine ⟨hperm, (hperm.map Entry.id).nodup_iff.mpr ?_⟩
  exact pairwise_map.mpr ((hp.keyed.sorted _).imp Nat.ne_of_lt)

/-- Rows 1 and 2 of the key `a`. -/
def sampleRows (k : Str) : List Entry :=
  if k = ['a'] then [⟨{ fields := .ofList [(['k'], ['a']), (['v'], ['1'])] }, 1⟩,
    ⟨{ fields := .ofList [(['k'], ['a']), (['v'], ['2'])] }, 2⟩] else []

def sampleChange (id : Nat) (v : Char) : Entry :=
  ⟨{ fields := .ofList [(['k'], ['a']), (['v'], [v])] }, id⟩

theorem dirtyEntries_complete_of_two : ∃ p,
    [sampleChange 2 '3', sampleChange 1 '4'].foldlM (commitDirtyEntry ['k']) { caches := sampleRows } = some p ∧
      p.caches ['a'] = [sampleChange 1 '4', sampleChange 2 '3'] ∧ (p.dirtyOf ['k'] ['a']).Perm (p.caches ['a']) := by
  have hrow : ∀ k, ∀ r ∈ sampleRows k, k = ['a'] ∧ r.deleted = false ∧ r.fields[['k']]? = some ['a'] := by
    intro k r hr
    unfold sampleRows at hr
    split_ifs at hr with hk
    · simp at hr
      refine ⟨hk, ?_⟩
      rcases hr with rfl | rfl <;> decide +kernel
    · cases hr
  have hrows : FiledRows ['k'] sampleRows := by
    refine ⟨fun k => ?_, fun k r hr => (hrow k r hr).2.1, fun k r hr => ?_, fun k k' r hr r' hr' _ => ?_⟩
    · unfold sampleRows
      split_ifs <;> decide
    · rw [(hrow k r hr).1]
      exact (hrow k r hr).2.2
    · exact (hrow k r hr).1.trans (hrow k' r' hr').1.symm
  obtain ⟨p, hp, hall⟩ := dirtyEntries_complete ['k'] sampleRows hrows [sampleChange 2 '3', sampleChange 1 '4']
    (by decide) (by
      rintro e he
      refine ⟨?_, ['a'], ?_, ?_⟩ <;> revert e <;> decide +kernel)
  have heq : [sampleChange 2 '3', sampleChange 1 '4'].foldlM (commitDirtyEntry ['k']) { caches := sampleRows } =
      some _ := rfl
  cases heq.symm.trans hp
  exact ⟨_, rfl, by decide +kernel, (hall (sampleChange 2 '3') (by simp)).1⟩

/-- A row that is changed twice is written twice, once with the values of the first change. -/
theorem not_dirtyEntries_complete : ∃ p,
    [sampleChange 1 '3', sampleChange 1 '4'].foldlM (commitDirtyEntry ['k']) { caches := sampleRows } = some p ∧
      p.caches ['a'] = [sampleChange 1 '4', sampleChange 2 '2'] ∧
      p.dirtyOf ['k'] ['a'] = [sampleChange 1 '3', sampleChange 1 '4', sampleChange 2 '2'] := by
  exact ⟨_, rfl, by decide +kernel, by decide +kernel⟩

end CommitData

end FiscoBcos
