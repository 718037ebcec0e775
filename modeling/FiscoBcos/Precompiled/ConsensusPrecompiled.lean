import FiscoBcos.Precompiled.SystemTables
import FiscoBcos.Storage.HexText

/-!
# The consensus contract

`libprecompiled/ConsensusPrecompiled.cpp` on the rows of `_sys_consensus_`, with the node ids as the texts that the rows
hold. Whether the sender of a call may write the table is an input.
-/

namespace FiscoBcos

open List Option Machine

structure ConsensusRow where
  nodeID : Str
  type : NodeType
  enableNum : FieldText
deriving DecidableEq

variable {row : ConsensusRow} {r : Int × List ConsensusRow} {type : NodeType}

namespace ConsensusPrecompiled

def CODE_INVALID_NODEID : Int := -51100

def CODE_LAST_SEALER : Int := -51101

inductive Method where
  | addSealer
  | addObserver
  | remove
  | undefined
deriving DecidableEq

structure Call where
  method : Method
  nodeID : Str
  authorized : Bool := true
deriving DecidableEq

section

variable (authorized : Bool) (nodeID : Str) (rows : List ConsensusRow)

def selectEntriesByNodeType (type : NodeType) : List ConsensusRow :=
  rows.filter fun row => row.type = type

def selectEntriesByNodeID : List ConsensusRow :=
  rows.filter fun row => row.nodeID = nodeID

def insert (row : ConsensusRow) : Int × List ConsensusRow :=
  if authorized then (1, rows ++ [row]) else (CODE_NO_AUTHORIZED, rows)

def update (type : NodeType) (enableNum : Int) : Int × List ConsensusRow :=
  if authorized then
    ((selectEntriesByNodeID nodeID rows).length, rows.map fun row =>
      if row.nodeID = nodeID then { row with type := type, enableNum := .number enableNum } else row)
  else (CODE_NO_AUTHORIZED, rows)

def removeRows : Int × List ConsensusRow :=
  if authorized then
    ((selectEntriesByNodeID nodeID rows).length, rows.filter fun row => row.nodeID ≠ nodeID)
  else (CODE_NO_AUTHORIZED, rows)

def checkIsLastSealer : Bool :=
  let sealers := selectEntriesByNodeType rows .sealer
  let workingSealers := selectEntriesByNodeType rows .workingSealer
  if sealers.map ConsensusRow.nodeID = [nodeID] then workingSealers.isEmpty
  else if (selectEntriesByNodeID nodeID rows).head?.map ConsensusRow.type = some .workingSealer then
    workingSealers.map ConsensusRow.nodeID = [nodeID]
  else false

end

variable (number : Int) (c : Call) (rows : List ConsensusRow) (nodeID : Str)

def addSealer : Int × List ConsensusRow :=
  if nodeID.length ≠ 128 then (CODE_INVALID_NODEID, rows)
  else if (selectEntriesByNodeID nodeID rows).isEmpty then
    insert c.authorized rows { nodeID := nodeID, type := .sealer, enableNum := .number (number + 1) }
  else update c.authorized nodeID rows .sealer (number + 1)

def addObserver : Int × List ConsensusRow :=
  if nodeID.length ≠ 128 then (CODE_INVALID_NODEID, rows)
  else if (selectEntriesByNodeID nodeID rows).isEmpty then
    insert c.authorized rows { nodeID := nodeID, type := .observer, enableNum := .number (number + 1) }
  else if checkIsLastSealer nodeID rows then (CODE_LAST_SEALER, rows)
  else update c.authorized nodeID rows .observer (number + 1)

def remove : Int × List ConsensusRow :=
  if nodeID.length ≠ 128 then (CODE_INVALID_NODEID, rows)
  else if checkIsLastSealer nodeID rows then (CODE_LAST_SEALER, rows)
  else removeRows c.authorized nodeID rows

def call : Int × List ConsensusRow :=
  match c.method with
  | .addSealer => addSealer number c rows (toLower c.nodeID)
  | .addObserver => addObserver number c rows (toLower c.nodeID)
  | .remove => remove c rows (toLower c.nodeID)
  | .undefined => (0, rows)

end ConsensusPrecompiled

structure SealerRegistry where
  rows : List ConsensusRow
  number : Int := 0
  outcomes : List (ConsensusPrecompiled.Call × Int) := []
deriving DecidableEq

variable (s : SealerRegistry)

namespace SealerRegistry

open ConsensusPrecompiled

inductive Event where
  | call (c : Call)
  | commitBlock
deriving DecidableEq

def step : Event → SealerRegistry
  | .call c =>
    let r := call s.number c s.rows
    { s with rows := r.2, outcomes := (c, r.1) :: s.outcomes }
  | .commitBlock => { s with number := s.number + 1 }

end SealerRegistry

namespace ConsensusPrecompiled

def OneRow (rows : List ConsensusRow) : Prop :=
  (rows.map ConsensusRow.nodeID).Nodup

instance (rows : List ConsensusRow) : Decidable (OneRow rows) :=
  inferInstanceAs (Decidable (List.Nodup _))

inductive Changes (number : Int) (c : Call) (rows : List ConsensusRow) : Int × List ConsensusRow → Prop where
  | refused {result : Int} (h : result < 0) : Changes number c rows (result, rows)
  | undefined (h : c.method = .undefined) : Changes number c rows (0, rows)
  | inserted {type : NodeType}
      (hmethod : c.method = .addSealer ∧ type = .sealer ∨ c.method = .addObserver ∧ type = .observer)
      (hauthorized : c.authorized = true) (hlength : (toLower c.nodeID).length = 128)
      (hnew : ∀ row ∈ rows, row.nodeID ≠ toLower c.nodeID) :
      Changes number c rows
        (1, rows ++ [{ nodeID := toLower c.nodeID, type := type, enableNum := .number (number + 1) }])
  | updated {type : NodeType} {count : Int} (hmethod : c.method = .addSealer ∧ type = .sealer ∨
        c.method = .addObserver ∧ type = .observer ∧ checkIsLastSealer (toLower c.nodeID) rows = false)
      (hauthorized : c.authorized = true) (hlength : (toLower c.nodeID).length = 128)
      (hold : ∃ row ∈ rows, row.nodeID = toLower c.nodeID) (hcount : 0 ≤ count) :
      Changes number c rows (count, rows.map fun row =>
        if row.nodeID = toLower c.nodeID then { row with type := type, enableNum := .number (number + 1) } else row)
  | removed {count : Int} (hmethod : c.method = .remove) (hlength : (toLower c.nodeID).length = 128)
      (hlast : checkIsLastSealer (toLower c.nodeID) rows = false) (hcount : 0 ≤ count) :
      Changes number c rows (count, rows.filter fun row => row.nodeID ≠ toLower c.nodeID)

variable {number : Int} {c : Call} {rows : List ConsensusRow} {nodeID : Str}

lemma selectEntriesByNodeID_isEmpty :
    (selectEntriesByNodeID nodeID rows).isEmpty = true ↔ ∀ row ∈ rows, row.nodeID ≠ nodeID := by
  simp [selectEntriesByNodeID, List.isEmpty_iff, List.filter_eq_nil_iff]

lemma code_no_authorized_neg : CODE_NO_AUTHORIZED < 0 := by decide

lemma changes_insert (hmethod : c.method = .addSealer ∧ type = .sealer ∨ c.method = .addObserver ∧ type = .observer)
    (hlength : (toLower c.nodeID).length = 128)
    (hnew : (selectEntriesByNodeID (toLower c.nodeID) rows).isEmpty = true) : Changes number c rows
      (insert c.authorized rows { nodeID := toLower c.nodeID, type := type, enableNum := .number (number + 1) }) := by
  unfold insert
  split
  · rename_i hauthorized
    exact .inserted hmethod hauthorized hlength (selectEntriesByNodeID_isEmpty.mp hnew)
  · exact .refused code_no_authorized_neg

lemma changes_update (hmethod : c.method = .addSealer ∧ type = .sealer ∨
      c.method = .addObserver ∧ type = .observer ∧ checkIsLastSealer (toLower c.nodeID) rows = false)
    (hlength : (toLower c.nodeID).length = 128)
    (hold : ¬(selectEntriesByNodeID (toLower c.nodeID) rows).isEmpty = true) :
    Changes number c rows (update c.authorized (toLower c.nodeID) rows type (number + 1)) := by
  have hexists : ∃ row ∈ rows, row.nodeID = toLower c.nodeID := by
    by_contra h
    exact hold (selectEntriesByNodeID_isEmpty.mpr fun row hrow heq => h ⟨row, hrow, heq⟩)
  unfold update
  split
  · rename_i hauthorized
    exact .updated hmethod hauthorized hlength hexists (by omega)
  · exact .refused code_no_authorized_neg

lemma changes_call (number : Int) (c : Call) (rows : List ConsensusRow) :
    Changes number c rows (call number c rows) := by
  unfold call
  cases hmethod : c.method with
  | addSealer =>
    unfold addSealer
    split_ifs with hlength hnew
    · exact .refused (by decide)
    · exact changes_insert (.inl ⟨hmethod, rfl⟩) (not_not.mp hlength) hnew
    · exact changes_update (.inl ⟨hmethod, rfl⟩) (not_not.mp hlength) hnew
  | addObserver =>
    unfold addObserver
    split_ifs with hlength hnew hlast
    · exact .refused (by decide)
    · exact changes_insert (.inr ⟨hmethod, rfl⟩) (not_not.mp hlength) hnew
    · exact .refused (by decide)
    · exact changes_update (.inr ⟨hmethod, rfl, Bool.eq_false_iff.mpr hlast⟩) (not_not.mp hlength) hnew
  | remove =>
    dsimp only
    unfold remove
    split_ifs with hlength hlast
    · exact .refused (by decide)
    · exact .refused (by decide)
    · unfold removeRows
      split
      · exact .removed hmethod (not_not.mp hlength) (Bool.eq_false_iff.mpr hlast) (by omega)
      · exact .refused code_no_authorized_neg
  | undefined => exact .undefined hmethod

lemma OneRow.of_changes (h : OneRow rows) (hr : Changes number c rows r) : OneRow r.2 := by
  cases hr with
  | refused | undefined => exact h
  | inserted _ _ _ hnew =>
    unfold OneRow
    rw [map_append, nodup_append]
    refine ⟨h, nodup_singleton _, fun a ha b hb => ?_⟩
    obtain ⟨row, hrow, rfl⟩ := mem_map.mp ha
    rw [mem_singleton.mp hb]
    exact hnew row hrow
  | updated =>
    unfold OneRow at h ⊢
    rw [List.map_map]
    have hids : ∀ f : ConsensusRow → ConsensusRow, (∀ row, (f row).nodeID = row.nodeID) →
        rows.map (ConsensusRow.nodeID ∘ f) = rows.map ConsensusRow.nodeID := by
      intro f hf
      exact map_congr_left fun row _ => hf row
    rw [hids]
    · exact h
    · intro row
      split <;> rfl
  | removed => exact List.Nodup.sublist (filter_sublist.map _) h

lemma row_of_changes (hr : Changes number c rows r) (hrow : row ∈ r.2) :
    row ∈ rows ∨ row.enableNum = .number (number + 1) ∧
      ((∃ old ∈ rows, old.nodeID = row.nodeID) ∨ (c.method = .addSealer ∨ c.method = .addObserver) ∧
        row.nodeID = toLower c.nodeID ∧ (toLower c.nodeID).length = 128) := by
  cases hr with
  | refused | undefined => exact .inl hrow
  | inserted hmethod _ hlength =>
    cases mem_append.mp hrow with
    | inl hold => exact .inl hold
    | inr hnew =>
      rw [mem_singleton.mp hnew]
      exact .inr ⟨rfl, .inr ⟨hmethod.imp And.left And.left, rfl, hlength⟩⟩
  | updated =>
    obtain ⟨old, hold, rfl⟩ := mem_map.mp hrow
    split
    · exact .inr ⟨rfl, .inl ⟨old, hold, rfl⟩⟩
    · exact .inl hold
  | removed => exact .inl (mem_filter.mp hrow).1

lemma OneRow.eq_of_nodeID_eq (h : OneRow rows) {row' : ConsensusRow} (hrow : row ∈ rows) (hrow' : row' ∈ rows)
    (heq : row.nodeID = row'.nodeID) : row = row' :=
  inj_on_of_nodup_map h hrow hrow' heq

def sealersNum (rows : List ConsensusRow) : Nat :=
  (selectEntriesByNodeType rows .workingSealer).length + (selectEntriesByNodeType rows .sealer).length

def workingSealersNum (rows : List ConsensusRow) : Nat :=
  (selectEntriesByNodeType rows .workingSealer).length

lemma length_select_pos : 0 < (selectEntriesByNodeType rows type).length ↔ ∃ row ∈ rows, row.type = type := by
  simp [selectEntriesByNodeType, length_pos_iff_exists_mem]

lemma workingSealersNum_pos : 1 ≤ workingSealersNum rows ↔ ∃ row ∈ rows, row.type = .workingSealer :=
  length_select_pos

lemma sealersNum_pos : 1 ≤ sealersNum rows ↔ ∃ row ∈ rows, row.type = .workingSealer ∨ row.type = .sealer := by
  have hadd : 1 ≤ sealersNum rows ↔ 0 < (selectEntriesByNodeType rows .workingSealer).length ∨
      0 < (selectEntriesByNodeType rows .sealer).length := by
    unfold sealersNum
    omega
  rw [hadd, length_select_pos, length_select_pos]
  constructor
  · rintro (⟨row, hrow, htype⟩ | ⟨row, hrow, htype⟩)
    · exact ⟨row, hrow, .inl htype⟩
    · exact ⟨row, hrow, .inr htype⟩
  · rintro ⟨row, hrow, htype | htype⟩
    · exact .inl ⟨row, hrow, htype⟩
    · exact .inr ⟨row, hrow, htype⟩

section

variable (h : OneRow rows)

include h

lemma OneRow.select_eq_singleton (hrow : row ∈ rows)
    (hall : ∀ row' ∈ rows, row'.type = row.type → row'.nodeID = row.nodeID) :
    (selectEntriesByNodeType rows row.type).map ConsensusRow.nodeID = [row.nodeID] := by
  have hmem : row ∈ selectEntriesByNodeType rows row.type := mem_filter.mpr ⟨hrow, by simp⟩
  have hnodup : ((selectEntriesByNodeType rows row.type).map ConsensusRow.nodeID).Nodup :=
    List.Nodup.sublist (filter_sublist.map _) h
  have hsame : ∀ nodeID ∈ (selectEntriesByNodeType rows row.type).map ConsensusRow.nodeID, nodeID = row.nodeID := by
    intro nodeID hnode
    obtain ⟨row', hrow', rfl⟩ := mem_map.mp hnode
    obtain ⟨hrow', htype⟩ := mem_filter.mp hrow'
    exact hall row' hrow' (by simpa using htype)
  exact perm_singleton.mp ((perm_ext_iff_of_nodup hnodup (nodup_singleton _)).mpr fun nodeID =>
    ⟨fun hnode => mem_singleton.mpr (hsame nodeID hnode), fun hnode => mem_singleton.mp hnode ▸ mem_map_of_mem hmem⟩)

lemma OneRow.checkIsLastSealer_working (hrow : row ∈ rows) (htype : row.type = .workingSealer)
    (hall : ∀ row' ∈ rows, row'.type = .workingSealer → row'.nodeID = row.nodeID) :
    checkIsLastSealer row.nodeID rows = true := by
  have hworking := h.select_eq_singleton hrow (by rwa [htype])
  rw [htype] at hworking
  -- the only row of the node is that of a working sealer
  have hpending : (selectEntriesByNodeType rows .sealer).map ConsensusRow.nodeID ≠ [row.nodeID] := by
    intro heq
    have hmem : row.nodeID ∈ (selectEntriesByNodeType rows .sealer).map ConsensusRow.nodeID := by simp [heq]
    obtain ⟨row', hrow', hid⟩ := mem_map.mp hmem
    obtain ⟨hrow', hsealer⟩ := mem_filter.mp hrow'
    rw [h.eq_of_nodeID_eq hrow' hrow hid, htype] at hsealer
    simp at hsealer
  have hfirst : (selectEntriesByNodeID row.nodeID rows).head?.map ConsensusRow.type = some .workingSealer := by
    have hne : selectEntriesByNodeID row.nodeID rows ≠ [] := ne_nil_of_mem (mem_filter.mpr ⟨hrow, by simp⟩)
    have hhead := head_mem hne
    obtain ⟨hmem, hid⟩ := mem_filter.mp hhead
    rw [head?_eq_some_head hne, map_some, h.eq_of_nodeID_eq hmem hrow (by simpa using hid), htype]
  unfold checkIsLastSealer
  rw [if_neg hpending, if_pos hfirst]
  simpa using hworking

lemma OneRow.exists_other_working (hcheck : checkIsLastSealer nodeID rows = false)
    (hworking : ∃ row ∈ rows, row.type = .workingSealer) :
    ∃ row ∈ rows, row.type = .workingSealer ∧ row.nodeID ≠ nodeID := by
  by_contra hnone
  have hall : ∀ row' ∈ rows, row'.type = .workingSealer → row'.nodeID = nodeID := by
    intro row' hrow' htype'
    by_contra hne
    exact hnone ⟨row', hrow', htype', hne⟩
  obtain ⟨row, hrow, htype⟩ := hworking
  obtain rfl := hall row hrow htype
  rw [h.checkIsLastSealer_working hrow htype hall] at hcheck
  cases hcheck

lemma OneRow.exists_other_sealer (hcheck : checkIsLastSealer nodeID rows = false)
    (hsealer : ∃ row ∈ rows, row.type = .workingSealer ∨ row.type = .sealer) :
    ∃ row ∈ rows, (row.type = .workingSealer ∨ row.type = .sealer) ∧ row.nodeID ≠ nodeID := by
  by_cases hworking : ∃ row ∈ rows, row.type = .workingSealer
  · obtain ⟨row, hrow, htype, hne⟩ := h.exists_other_working hcheck hworking
    exact ⟨row, hrow, .inl htype, hne⟩
  by_contra hnone
  have hall : ∀ row' ∈ rows, row'.type = .sealer → row'.nodeID = nodeID := by
    intro row' hrow' htype'
    by_contra hne
    exact hnone ⟨row', hrow', .inr htype', hne⟩
  obtain ⟨row, hrow, htype⟩ := hsealer
  have htype : row.type = .sealer := htype.resolve_left fun hw => hworking ⟨row, hrow, hw⟩
  obtain rfl := hall row hrow htype
  have hpending := h.select_eq_singleton hrow (by rwa [htype])
  rw [htype] at hpending
  have hempty : (selectEntriesByNodeType rows .workingSealer).isEmpty = true := by
    rw [isEmpty_iff_length_eq_zero, ← Nat.le_zero, ← not_lt, length_select_pos]
    exact hworking
  unfold checkIsLastSealer at hcheck
  rw [if_pos hpending, hempty] at hcheck
  cases hcheck

lemma sealersNum_of_changes (hr : Changes number c rows r) (hpos : 1 ≤ sealersNum rows) : 1 ≤ sealersNum r.2 := by
  rw [sealersNum_pos] at hpos ⊢
  cases hr with
  | refused | undefined => exact hpos
  | inserted =>
    obtain ⟨row, hrow, htype⟩ := hpos
    exact ⟨row, mem_append_left _ hrow, htype⟩
  | updated hmethod _ _ hold =>
    cases hmethod with
    | inl hsealer =>
      -- the node itself is a sealer now
      obtain ⟨row, hrow, hid⟩ := hold
      refine ⟨_, mem_map_of_mem hrow, .inr ?_⟩
      rw [if_pos hid, hsealer.2]
    | inr hobserver =>
      obtain ⟨row, hrow, htype, hne⟩ := h.exists_other_sealer hobserver.2.2 hpos
      refine ⟨_, mem_map_of_mem hrow, ?_⟩
      rwa [if_neg hne]
  | removed hmethod hlength hlast =>
    obtain ⟨row, hrow, htype, hne⟩ := h.exists_other_sealer hlast hpos
    exact ⟨row, mem_filter.mpr ⟨hrow, by simpa using hne⟩, htype⟩

end

def DemotesLast (rows : List ConsensusRow) (c : Call) : Prop :=
  c.method = .addSealer ∧ c.authorized = true ∧ (toLower c.nodeID).length = 128 ∧
    ∀ row ∈ rows, row.type = .workingSealer → row.nodeID = toLower c.nodeID

instance (rows : List ConsensusRow) (c : Call) : Decidable (DemotesLast rows c) :=
  inferInstanceAs (Decidable (_ ∧ _ ∧ _ ∧ _))

lemma workingSealersNum_of_demotesLast (hpos : 1 ≤ workingSealersNum rows) (hc : DemotesLast rows c) :
    workingSealersNum (call number c rows).2 = 0 := by
  obtain ⟨hmethod, hauthorized, hlength, hall⟩ := hc
  obtain ⟨row, hrow, htype⟩ := workingSealersNum_pos.mp hpos
  have hexists : ¬(selectEntriesByNodeID (toLower c.nodeID) rows).isEmpty = true := by
    rw [selectEntriesByNodeID_isEmpty]
    exact fun h => h row hrow (hall row hrow htype)
  unfold call
  rw [hmethod]
  unfold addSealer update
  rw [if_neg (not_not.mpr hlength), if_neg hexists, if_pos hauthorized]
  by_contra hne
  obtain ⟨row', hrow', htype'⟩ := workingSealersNum_pos.mp (Nat.one_le_iff_ne_zero.mpr hne)
  obtain ⟨old, hold, rfl⟩ := mem_map.mp hrow'
  split at htype'
  · cases htype'
  · rename_i hother
    exact hother (hall old hold htype')

lemma workingSealersNum_of_changes (h : OneRow rows) (hpos : 1 ≤ workingSealersNum rows)
    (hc : ¬DemotesLast rows c) : 1 ≤ workingSealersNum (call number c rows).2 := by
  rw [workingSealersNum_pos] at hpos ⊢
  have hr := changes_call number c rows
  revert hr
  generalize call number c rows = r
  intro hr
  cases hr with
  | refused | undefined => exact hpos
  | inserted =>
    obtain ⟨row, hrow, htype⟩ := hpos
    exact ⟨row, mem_append_left _ hrow, htype⟩
  | updated hmethod hauthorized hlength =>
    have hother : ∃ row ∈ rows, row.type = .workingSealer ∧ row.nodeID ≠ toLower c.nodeID := by
      cases hmethod with
      | inl hsealer =>
        by_contra hnone
        refine hc ⟨hsealer.1, hauthorized, hlength, fun row hrow htype => ?_⟩
        by_contra hne
        exact hnone ⟨row, hrow, htype, hne⟩
      | inr hobserver => exact h.exists_other_working hobserver.2.2 hpos
    obtain ⟨row, hrow, htype, hne⟩ := hother
    refine ⟨_, mem_map_of_mem hrow, ?_⟩
    rwa [if_neg hne]
  | removed hmethod hlength hlast =>
    obtain ⟨row, hrow, htype, hne⟩ := h.exists_other_working hlast hpos
    exact ⟨row, mem_filter.mpr ⟨hrow, by simpa using hne⟩, htype⟩

end ConsensusPrecompiled

namespace SealerRegistry

variable {e : Event}

open ConsensusPrecompiled

def DemotesLast : Event → Prop
  | .call c => ConsensusPrecompiled.DemotesLast s.rows c
  | .commitBlock => False

instance (s : SealerRegistry) : ∀ e, Decidable (DemotesLast s e)
  | .call c => inferInstanceAs (Decidable (ConsensusPrecompiled.DemotesLast s.rows c))
  | .commitBlock => inferInstanceAs (Decidable False)

lemma oneRow_step {s : SealerRegistry} (h : OneRow s.rows) : OneRow (step s e).rows := by
  cases e with
  | call c => exact h.of_changes (changes_call s.number c s.rows)
  | commitBlock => exact h

lemma sealersNum_step {s : SealerRegistry} (h : OneRow s.rows) (hpos : 1 ≤ sealersNum s.rows) :
    1 ≤ sealersNum (step s e).rows := by
  cases e with
  | call c => exact sealersNum_of_changes h (changes_call s.number c s.rows) hpos
  | commitBlock => exact hpos

lemma workingSealersNum_step (e : Event) (h : OneRow s.rows) (hpos : 1 ≤ workingSealersNum s.rows) :
    1 ≤ workingSealersNum (step s e).rows ↔ ¬DemotesLast s e := by
  cases e with
  | call c =>
    constructor
    · intro hkept hc
      have hnone : workingSealersNum (step s (.call c)).rows = 0 := workingSealersNum_of_demotesLast hpos hc
      omega
    · exact workingSealersNum_of_changes h hpos
  | commitBlock => exact ⟨fun _ => not_false, fun _ => hpos⟩

/-- In a table in which every node has one row, the calls leave a sealer if there is one. They leave a working sealer if
there is one exactly as long as none of them is `addSealer` for the only working sealer. -/
theorem sealers_left (s : SealerRegistry) (es : List Event) (h : OneRow s.rows) :
    (1 ≤ sealersNum s.rows → 1 ≤ sealersNum (run step s es).rows) ∧ (1 ≤ workingSealersNum s.rows →
        (Along step (fun s e => 1 ≤ workingSealersNum (step s e).rows) s es ↔
          Along step (fun s e => ¬DemotesLast s e) s es)) := by
  constructor
  · intro hpos
    refine (run_induction (fun s : SealerRegistry => OneRow s.rows ∧ 1 ≤ sealersNum s.rows) ?_ ⟨h, hpos⟩ es).2
    exact fun s e hs => ⟨oneRow_step hs.1, sealersNum_step hs.1 hs.2⟩
  · intro hpos
    induction es generalizing s with
    | nil => exact Iff.rfl
    | cons e es ih =>
      have hstep := workingSealersNum_step s e h hpos
      constructor
      · intro ha
        exact ⟨hstep.mp ha.1, (ih _ (oneRow_step h) ha.1).mp ha.2⟩
      · intro ha
        have hkept := hstep.mpr ha.1
        exact ⟨hkept, (ih _ (oneRow_step h) hkept).mpr ha.2⟩

def nodeText (c : Char) : Str :=
  replicate 128 c

def tableOf (types : List (Char × NodeType)) : SealerRegistry where
  rows := types.map fun q => ⟨nodeText q.1, q.2, .number 0⟩

theorem sealers_left_of_observer :
    let s := tableOf [('a', .workingSealer), ('b', .sealer), ('c', .workingSealer)]
    let es : List Event := [.call ⟨.addObserver, nodeText 'a', true⟩, .call ⟨.addSealer, nodeText 'B', true⟩, .commitBlock]
    1 ≤ sealersNum (run step s es).rows ∧
      Along step (fun s e => 1 ≤ workingSealersNum (step s e).rows) s es := by
  have h := sealers_left (tableOf [('a', .workingSealer), ('b', .sealer), ('c', .workingSealer)])
    [.call ⟨.addObserver, nodeText 'a', true⟩, .call ⟨.addSealer, nodeText 'B', true⟩, .commitBlock] (by decide +kernel)
  exact ⟨h.1 (by decide +kernel), (h.2 (by decide +kernel)).mpr (by decide +kernel)⟩

/-- `addSealer` for the only working sealer leaves none, and a node that the table names twice can be removed with both
of its rows. -/
theorem not_sealers_left : workingSealersNum (tableOf [('a', .workingSealer), ('b', .sealer)]).rows = 1 ∧
      workingSealersNum (run step (tableOf [('a', .workingSealer), ('b', .sealer)])
        [.call ⟨.addSealer, nodeText 'a', true⟩]).rows = 0 ∧
      sealersNum (tableOf [('a', .sealer), ('a', .sealer)]).rows = 2 ∧
      sealersNum (run step (tableOf [('a', .sealer), ('a', .sealer)])
        [.call ⟨.remove, nodeText 'a', true⟩]).rows = 0 := by
  decide +kernel

end SealerRegistry

end FiscoBcos
