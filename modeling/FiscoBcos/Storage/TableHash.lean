import FiscoBcos.Lib.Slices
import FiscoBcos.Storage.MemoryTableFactory2

/-!
# The bytes a table is hashed from

`MemoryTable2::dump` collects the changed rows in the order of concurrent maps and parallel tasks and sorts them with an
unstable sort. `Dumped` allows every order of these.
-/

namespace FiscoBcos

open List Option Slices Row Prod.Lex

variable (entries : List Entry) (startOffset : Nat) {a b : Entry} (r : Row)

namespace Row

/-- The texts that are copied one after another for a row; the last one is the byte of its status. -/
def pieces : List Str :=
  r.hashFields.flatMap (fun f => [f.1, f.2]) ++ [[Char.ofNat r.status.toNat]]

def bytes : Str :=
  r.pieces.flatten

end Row

namespace MemoryTable2

def genDataOffset : List Nat :=
  entries.scanl (fun offset e => offset + e.capacityOfHashField + 1) startOffset

def genDataCopies : List (Nat × Str) :=
  (entries.zip (genDataOffset entries startOffset)).flatMap fun e => layout e.2 e.1.pieces

def allSize : Nat :=
  (entries.map fun e => e.capacityOfHashField + 1).sum

variable (t : MemoryTable2)

def dirtyRows : List Entry :=
  (t.dirty.toList.map fun e => { toRow := e.2, id := e.1 }).filter fun e => !e.deleted

def insertedRows : List Entry :=
  (t.newEntries.toList.flatMap fun rows => rows.2.map fun row => { toRow := row }).filter fun e =>
    !e.deleted

structure SortedRows (info : TableInfo) (rows sorted : List Entry) : Prop where
  perm : sorted.Perm rows
  sorted : sorted.Pairwise fun a b => EntryLessNoLock.less info b a = false

/-- `dump` leaves these lists and hashes these bytes. A table without consensus is not hashed. -/
structure Dumped (dirtyEntries newEntries : List Entry) (data : Str) : Prop where
  consensus : t.info.enableConsensus = true
  dirty : SortedRows t.info t.dirtyRows dirtyEntries
  new : SortedRows t.info t.insertedRows newEntries
  copied : ∃ copies : List (Nat × Str), copies.Perm (genDataCopies dirtyEntries 0 ++ genDataCopies newEntries
      ((genDataOffset dirtyEntries 0).getD dirtyEntries.length 0)) ∧
    data = writeAll (replicate (allSize t.dirtyRows + allSize t.insertedRows) (Char.ofNat 0)) copies

end MemoryTable2

section

open MemoryTable2

lemma length_fields (fs : List (Str × Str)) :
    (fs.flatMap fun f => [f.1, f.2]).flatten.length = (fs.map fun f => f.1.length + f.2.length).sum := by
  induction fs with
  | nil => rfl
  | cons f fs ih =>
    simp only [flatMap_cons, flatten_append, length_append, ih, map_cons, sum_cons]
    simp

lemma Row.length_pieces : r.pieces.flatten.length = r.capacityOfHashField + 1 := by
  unfold pieces capacityOfHashField
  rw [flatten_append, length_append, length_fields]
  rfl

lemma next_offset (offset : Nat) (e : Entry) :
    offset + e.capacityOfHashField + 1 = offset + e.pieces.flatten.length := by
  rw [length_pieces, add_assoc]

lemma flatten_pieces : (entries.flatMap fun e => e.pieces).flatten = entries.flatMap fun e => e.bytes := by
  rw [flatMap_def, flatten_flatten, List.map_map]
  rfl

lemma allSize_eq : allSize entries = (entries.flatMap fun e => e.pieces).flatten.length := by
  rw [flatten_pieces, length_flatMap]
  simp only [allSize, bytes, length_pieces]

lemma MemoryTable2.dumped_iff {t : MemoryTable2} {ds ns : List Entry} {data : Str} :
    t.Dumped ds ns data ↔ t.info.enableConsensus = true ∧ SortedRows t.info t.dirtyRows ds ∧
      SortedRows t.info t.insertedRows ns ∧ data = (ds ++ ns).flatMap fun e => e.bytes := by
  have hcopies : genDataCopies ds 0 ++ genDataCopies ns ((genDataOffset ds 0).getD ds.length 0) =
      layout 0 ((ds ++ ns).flatMap fun e => e.pieces) := by
    unfold genDataCopies genDataOffset
    rw [getD_scanl next_offset, flatMap_layout next_offset, flatMap_layout next_offset, flatMap_append, layout_append]
  have hwrite : SortedRows t.info t.dirtyRows ds → SortedRows t.info t.insertedRows ns → ∀ copies : List (Nat × Str),
      copies.Perm (layout 0 ((ds ++ ns).flatMap fun e => e.pieces)) →
      writeAll (replicate (allSize t.dirtyRows + allSize t.insertedRows) (Char.ofNat 0)) copies =
        (ds ++ ns).flatMap fun e => e.bytes := by
    intro hds hns copies hperm
    have hsize : allSize t.dirtyRows + allSize t.insertedRows = allSize (ds ++ ns) := by
      simp only [allSize, map_append, sum_append, (hds.perm.map _).sum_nat, (hns.perm.map _).sum_nat]
    rw [writeAll_perm hperm, flatten_pieces]
    rw [length_replicate, hsize, allSize_eq]
  constructor
  · rintro ⟨hcons, hds, hns, copies, hperm, rfl⟩
    rw [hcopies] at hperm
    exact ⟨hcons, hds, hns, hwrite hds hns copies hperm⟩
  · rintro ⟨hcons, hds, hns, rfl⟩
    refine ⟨hcons, hds, hns, _, Perm.refl _, ?_⟩
    rw [hcopies, hwrite hds hns _ (Perm.refl _)]

end

namespace EntryLessNoLock

def sortKey (info : TableInfo) (e : Entry) : Nat ×ₗ Str ×ₗ Nat ×ₗ List (Str ×ₗ Str) :=
  toLex (e.id, toLex (e.getField info.key, toLex (e.fields.size, e.fields.toList.map toLex)))

lemma fieldsLess_iff {ls rs : List (Str × Str)} (hlen : ls.length = rs.length) :
    fieldsLess ls rs = true ↔ ls.map toLex < rs.map toLex := by
  induction ls generalizing rs with
  | nil =>
    cases rs with
    | nil => simp [fieldsLess]
    | cons => simp at hlen
  | cons l ls ih =>
    cases rs with
    | nil => simp at hlen
    | cons r =>
      have htail := ih (Nat.succ.inj hlen)
      rw [fieldsLess, map_cons, map_cons, cons_lt_cons_iff, toLex_lt_toLex, ← htail]
      by_cases h1 : l.1 = r.1
      · by_cases h2 : l.2 = r.2
        · simp [h1, h2, Prod.ext_iff]
        · simp [h1, h2, Prod.ext_iff]
      · simp [h1, Prod.ext_iff]

lemma less_iff (info : TableInfo) (a b : Entry) : less info a b = true ↔ sortKey info a < sortKey info b := by
  unfold less sortKey
  rw [toLex_lt_toLex, toLex_lt_toLex, toLex_lt_toLex]
  by_cases hid : a.id = b.id
  · by_cases hkey : a.getField info.key = b.getField info.key
    · by_cases hsize : a.fields.size = b.fields.size
      · have hlen : a.fields.toList.length = b.fields.toList.length := by
          rw [Std.ExtTreeMap.length_toList, Std.ExtTreeMap.length_toList, hsize]
        simp [hid, hkey, hsize, fieldsLess_iff hlen]
      · simp [hid, hkey, hsize]
    · simp [hid, hkey]
  · simp [hid]

lemma sortKey_eq_iff {info : TableInfo} : sortKey info a = sortKey info b ↔ a.id = b.id ∧ a.fields = b.fields := by
  constructor
  · intro h
    simp only [sortKey, EmbeddingLike.apply_eq_iff_eq, Prod.mk.injEq] at h
    refine ⟨h.1, Std.ExtTreeMap.toList_inj.mp ?_⟩
    exact map_injective_iff.mpr toLex.injective h.2.2.2
  · rintro ⟨hid, hfields⟩
    simp only [sortKey, getField, hid, hfields]

end EntryLessNoLock

namespace MemoryTable2

open EntryLessNoLock

variable {t : MemoryTable2} {info : TableInfo} {rows ds ns : List Entry}

lemma sortedRows_iff : SortedRows info rows ds ↔
    ds.Perm rows ∧ ds.Pairwise fun a b => sortKey info a ≤ sortKey info b := by
  have hle : ∀ a b, less info b a = false ↔ sortKey info a ≤ sortKey info b := by
    intro a b
    rw [← not_lt, ← less_iff, Bool.not_eq_true]
  constructor
  · exact fun h => ⟨h.perm, h.sorted.imp fun hab => (hle _ _).mp hab⟩
  · exact fun h => ⟨h.1, h.2.imp fun hab => (hle _ _).mpr hab⟩

lemma SortedRows.unique (hds : SortedRows info rows ds) (hns : SortedRows info rows ns)
    (hrows : ∀ a ∈ rows, ∀ b ∈ rows, sortKey info a = sortKey info b → a = b) : ds = ns := by
  rw [sortedRows_iff] at hds hns
  apply Perm.eq_of_pairwise _ hds.2 hns.2 (hds.1.trans hns.1.symm)
  intro a b ha hb hab hba
  exact hrows a (hds.1.mem_iff.mp ha) b (hns.1.mem_iff.mp hb) (le_antisymm hab hba)

lemma exists_sortedRows : ∃ ds, SortedRows info rows ds := by
  refine ⟨rows.mergeSort fun a b => decide (sortKey info a ≤ sortKey info b), ?_⟩
  rw [sortedRows_iff]
  refine ⟨mergeSort_perm _ _, ?_⟩
  have hsorted : (rows.mergeSort fun a b => decide (sortKey info a ≤ sortKey info b)).Pairwise fun a b =>
      decide (sortKey info a ≤ sortKey info b) = true := by
    apply pairwise_mergeSort
    · intro a b c hab hbc
      simp only [decide_eq_true_eq] at hab hbc ⊢
      exact hab.trans hbc
    · intro a b
      simpa using le_total (sortKey info a) (sortKey info b)
  exact hsorted.imp of_decide_eq_true

lemma map_swap {α β : Type*} {l : List α} (g : α → β) {i j : Nat} (hi : i < l.length) (hj : j < l.length)
    (hg : g l[i] = g l[j]) : ((l.set i l[j]).set j l[i]).map g = l.map g := by
  apply ext_getElem?
  intro k
  by_cases hjk : j = k
  · subst hjk
    simp [hj, hg]
  by_cases hik : i = k
  · subst hik
    simp [hjk, hi, hg]
  · simp [hjk, hik]

lemma SortedRows.swap (h : SortedRows info rows ds) {i j : Nat} (hi : i < ds.length) (hj : j < ds.length)
    (hkey : sortKey info ds[i] = sortKey info ds[j]) : SortedRows info rows ((ds.set i ds[j]).set j ds[i]) := by
  rw [sortedRows_iff] at h ⊢
  refine ⟨(set_set_perm hi hj).trans h.1, ?_⟩
  have hsorted := h.2
  rw [← pairwise_map] at hsorted ⊢
  rwa [map_swap (sortKey info) hi hj hkey]

lemma eq_of_mem_dirtyRows (ha : a ∈ t.dirtyRows) (hb : b ∈ t.dirtyRows) (hid : a.id = b.id) : a = b := by
  have hrow : ∀ e ∈ t.dirtyRows, t.dirty[e.id]? = some e.toRow := by
    intro e he
    obtain ⟨p, hp, rfl⟩ := mem_map.mp (mem_of_mem_filter he)
    exact Std.ExtTreeMap.mem_toList_iff_getElem?_eq_some.mp hp
  have hsame := hrow a ha
  rw [hid, hrow b hb] at hsame
  rw [Entry.mk.injEq]
  exact ⟨(some.inj hsame).symm, hid⟩

lemma of_mem_insertedRows (ha : a ∈ t.insertedRows) : a.id = 0 ∧ a.deleted = false := by
  obtain ⟨hmem, hlive⟩ := mem_filter.mp ha
  obtain ⟨p, -, hp⟩ := mem_flatMap.mp hmem
  obtain ⟨r, -, rfl⟩ := mem_map.mp hp
  exact ⟨rfl, by simpa using hlive⟩

lemma status_eq_of_bytes_eq {a b : Row} (hfields : a.fields = b.fields) (h : a.bytes = b.bytes) :
    a.status = b.status := by
  simp only [bytes, pieces, hashFields, hfields, flatten_append, append_cancel_left_eq] at h
  cases ha : a.status <;> cases hb : b.status
  case normal.normal => rfl
  case deleted.deleted => rfl
  all_goals
    rw [ha, hb] at h
    exact absurd h (by decide)

lemma length_bytes_of_fields {a b : Row} (hfields : a.fields = b.fields) : a.bytes.length = b.bytes.length := by
  rw [bytes, bytes, length_pieces, length_pieces]
  simp only [capacityOfHashField, hashFields, hfields]

/-- The hashed bytes do not depend on any order exactly if no two inserted rows differ in their status only. -/
theorem dumped_unique_iff (t : MemoryTable2) : (∀ t' : MemoryTable2, t'.info = t.info → t'.dirtyRows.Perm t.dirtyRows →
        t'.insertedRows.Perm t.insertedRows → ∀ ds ns data ds' ns' data',
        t.Dumped ds ns data → t'.Dumped ds' ns' data' → data = data') ↔
      (t.info.enableConsensus = true → ∀ a ∈ t.insertedRows, ∀ b ∈ t.insertedRows,
        a.fields = b.fields → a.status = b.status) := by
  constructor
  · intro hall hcons a ha b hb hfields
    obtain ⟨ds, hds⟩ := exists_sortedRows
    obtain ⟨ns, hns⟩ := exists_sortedRows
    obtain ⟨i, hi, rfl⟩ := getElem_of_mem (hns.perm.mem_iff.mpr ha)
    obtain ⟨j, hj, rfl⟩ := getElem_of_mem (hns.perm.mem_iff.mpr hb)
    have hkey : sortKey t.info ns[i] = sortKey t.info ns[j] := by
      rw [sortKey_eq_iff, (of_mem_insertedRows ha).1, (of_mem_insertedRows hb).1]
      exact ⟨rfl, hfields⟩
    have hdata := hall t rfl (List.Perm.refl _) (List.Perm.refl _) _ _ _ _ _ _ (dumped_iff.mpr ⟨hcons, hds, hns, rfl⟩)
      (dumped_iff.mpr ⟨hcons, hds, hns.swap hi hj hkey, rfl⟩)
    rw [flatMap_append, flatMap_append, append_cancel_left_eq, flatMap_def, flatMap_def] at hdata
    -- the rows are as long as before, so they are the same one by one
    have hlens := map_swap (fun e : Entry => e.bytes.length) hi hj (length_bytes_of_fields hfields)
    have hrows := List.eq_iff_flatten_eq.mpr ⟨hdata, by
      rw [List.map_map, List.map_map]
      exact hlens.symm⟩
    have hrow := congrArg (fun l => l[j]?) hrows
    simp only [getElem?_map, length_set, hj, getElem?_eq_getElem, map_some, some.injEq, getElem_set_self] at hrow
    exact status_eq_of_bytes_eq hfields hrow.symm
  · intro hstatus t' hinfo hdirty hinserted ds ns data ds' ns' data' h h'
    obtain ⟨hcons, hds, hns, rfl⟩ := dumped_iff.mp h
    obtain ⟨-, hds', hns', rfl⟩ := dumped_iff.mp h'
    rw [hinfo] at hds' hns'
    have hdsame : ds = ds' := by
      apply hds.unique ⟨hds'.perm.trans hdirty, hds'.sorted⟩
      intro a ha b hb hkey
      exact eq_of_mem_dirtyRows ha hb (sortKey_eq_iff.mp hkey).1
    have hnsame : ns = ns' := by
      apply hns.unique ⟨hns'.perm.trans hinserted, hns'.sorted⟩
      intro a ha b hb hkey
      obtain ⟨hid, hfields⟩ := sortKey_eq_iff.mp hkey
      have hdeleted : a.deleted = b.deleted := by
        rw [(of_mem_insertedRows ha).2, (of_mem_insertedRows hb).2]
      rw [Entry.mk.injEq, Row.mk.injEq]
      exact ⟨⟨hstatus hcons a ha b hb hfields, hdeleted, hfields⟩, hid⟩
    rw [hdsame, hnsame]

def sampleInfo : TableInfo where
  name := "t".toList
  key := "k".toList
  fields := ["a".toList, "b".toList]

def sampleTable (calls : List TableCall) : MemoryTable2 :=
  ((Machine.run (MemoryTableFactory2.call .noRows)
    { name2Table := (∅ : Std.ExtTreeMap Str MemoryTable2).insert sampleInfo.name (opened sampleInfo) }
    (calls.map fun c => (sampleInfo.name, c))).name2Table.getD sampleInfo.name (opened sampleInfo))

def sampleRow (a b : Str) (status : Status) : Entry where
  status := status
  fields := ((∅ : FieldMap).insert "a".toList a).insert "b".toList b |>.insert "k".toList "1".toList

def sampleInsert (a b : Str) : TableCall :=
  .insert "1".toList (((∅ : FieldMap).insert "a".toList a).insert "b".toList b) {}

/-- A row is inserted, removed and inserted again: the sort may leave the two rows in either order, and the bytes
differ. -/
theorem not_dumped_unique :
    let t := sampleTable [sampleInsert "x".toList "y".toList, .remove "1".toList {} {},
      sampleInsert "x".toList "y".toList]
    ∃ ns ns' data data', t.Dumped [] ns data ∧ t.Dumped [] ns' data' ∧ data ≠ data' := by
  intro t
  have hrows : t.dirtyRows = [] ∧ t.insertedRows = [sampleRow "x".toList "y".toList .deleted,
      sampleRow "x".toList "y".toList .normal] ∧ t.info.enableConsensus = true ∧ t.info = sampleInfo := by
    decide +kernel
  obtain ⟨hdirty, hinserted, hcons, hinfo⟩ := hrows
  refine ⟨[sampleRow "x".toList "y".toList .deleted, sampleRow "x".toList "y".toList .normal],
    [sampleRow "x".toList "y".toList .normal, sampleRow "x".toList "y".toList .deleted], _, _,
    dumped_iff.mpr ⟨hcons, ?_, ?_, rfl⟩, dumped_iff.mpr ⟨hcons, ?_, ?_, rfl⟩, by decide +kernel⟩
  all_goals rw [hinfo]
  · rw [hdirty]
    exact ⟨Perm.nil, Pairwise.nil⟩
  · rw [hinserted]
    exact ⟨by decide +kernel, by decide +kernel⟩
  · rw [hdirty]
    exact ⟨Perm.nil, Pairwise.nil⟩
  · rw [hinserted]
    exact ⟨by decide +kernel, by decide +kernel⟩

def hashed (e : Entry) : List (Str × Str) × Status :=
  (e.hashFields, e.status)

/-- The two lists differ, and where they first do, neither text begins with the other. -/
def Apart : List Str → List Str → Prop
  | p :: ps, q :: qs => if p = q then Apart ps qs else ¬p <+: q ∧ ¬q <+: p
  | _, _ => False

instance decidableApart : ∀ ps qs, Decidable (Apart ps qs)
  | p :: ps, q :: qs =>
    have := decidableApart ps qs
    inferInstanceAs (Decidable (if p = q then Apart ps qs else ¬p <+: q ∧ ¬q <+: p))
  | [], _ => isFalse (by simp [Apart])
  | _ :: _, [] => isFalse (by simp [Apart])

/-- The rows differ, and the first two that do are apart in their texts. -/
def RowsApart : List Entry → List Entry → Prop
  | e :: es, e' :: es' => if hashed e = hashed e' then RowsApart es es' else Apart e.pieces e'.pieces
  | _, _ => False

lemma Apart.flatten_ne {ps qs : List Str} (h : Apart ps qs) (s s' : Str) : ps.flatten ++ s ≠ qs.flatten ++ s' := by
  induction ps generalizing qs with
  | nil => exact h.elim
  | cons p ps ih =>
    cases qs with
    | nil => exact h.elim
    | cons q qs =>
      unfold Apart at h
      rw [flatten_cons, flatten_cons, append_assoc, append_assoc]
      split at h
      case isTrue heq =>
        rw [heq, ne_eq, append_cancel_left_eq]
        exact ih h
      case isFalse =>
        intro heq
        have hp : p <+: q ++ (qs.flatten ++ s') := heq ▸ prefix_append _ _
        rcases prefix_or_prefix_of_prefix hp (prefix_append _ _) with hpq | hqp
        · exact h.1 hpq
        · exact h.2 hqp

lemma bytes_of_hashed (h : hashed a = hashed b) : a.bytes = b.bytes := by
  simp only [hashed, Prod.mk.injEq] at h
  rw [bytes, bytes, pieces, pieces, h.1, h.2]

lemma flatMap_bytes_of_hashed {es es' : List Entry} (h : es.map hashed = es'.map hashed) :
    es.flatMap (fun e => e.bytes) = es'.flatMap fun e => e.bytes := by
  induction es generalizing es' with
  | nil => rw [map_eq_nil_iff.mp h.symm]
  | cons e es ih =>
    obtain ⟨e', es', rfl, he, hes⟩ := map_eq_cons_iff.mp h.symm
    rw [flatMap_cons, flatMap_cons, bytes_of_hashed he.symm, ih hes.symm]

lemma RowsApart.flatMap_bytes_ne {es es' : List Entry} (h : RowsApart es es') :
    es.flatMap (fun e => e.bytes) ≠ es'.flatMap fun e => e.bytes := by
  induction es generalizing es' with
  | nil => exact h.elim
  | cons e es ih =>
    cases es' with
    | nil => exact h.elim
    | cons e' es' =>
      unfold RowsApart at h
      rw [flatMap_cons, flatMap_cons]
      split at h
      case isTrue heq =>
        rw [bytes_of_hashed heq, ne_eq, append_cancel_left_eq]
        exact ih h
      case isFalse => exact h.flatten_ne _ _

lemma dumped_single {e : Entry} (h : t.dirtyRows = [] ∧ t.insertedRows = [e] ∧
    t.info.enableConsensus = true) : t.Dumped [] [e] e.bytes := by
  obtain ⟨hdirty, hinserted, hcons⟩ := h
  refine dumped_iff.mpr ⟨hcons, ?_, ?_, by simp⟩
  · rw [hdirty]
    exact ⟨Perm.nil, Pairwise.nil⟩
  · rw [hinserted]
    exact ⟨Perm.refl _, pairwise_singleton _ _⟩

end MemoryTable2

end FiscoBcos
