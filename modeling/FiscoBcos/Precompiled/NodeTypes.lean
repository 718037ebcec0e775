import Mathlib.Data.Finset.Card
import FiscoBcos.Lib.KeyedRows
import FiscoBcos.Precompiled.WorkingSealerManager

/-!
# Who is of which type

What the steps of a rotation do to the types of the nodes.
-/

namespace FiscoBcos

open List NodeRow

def typeOf (rows : List NodeRow) (node : NodeID) : Option NodeType :=
  (rows.find? fun row => row.nodeId = node).map type

def OneRowEach (rows : List NodeRow) : Prop :=
  (rows.map nodeId).Nodup

instance (rows : List NodeRow) : Decidable (OneRowEach rows) :=
  inferInstanceAs (Decidable (List.Nodup _))

section

variable {rows : List NodeRow} {n : Int} {type : NodeType} {node : NodeID}

lemma getNodeListByType_sublist :
    (getNodeListByType n type rows).Sublist ((rows.filter fun row => row.type = type).map nodeId) := by
  induction rows with
  | nil => exact .slnil
  | cons row rows ih =>
    unfold getNodeListByType
    split
    case isTrue htype =>
      rw [filter_cons_of_pos (by simpa using htype), map_cons]
      split
      · exact nil_sublist _
      · split
        · exact ih.cons_cons row.nodeId
        · exact ih.cons row.nodeId
    case isFalse htype =>
      rw [filter_cons_of_neg (by simpa using htype)]
      exact ih

lemma OneRowEach.typeOf_eq (h : OneRowEach rows) {row : NodeRow} (hrow : row ∈ rows) :
    typeOf rows row.nodeId = some row.type :=
  congrArg (Option.map type) (KeyedRows.find?_of_nodup h hrow)

lemma exists_row_of_typeOf (h : typeOf rows node = some type) : ∃ row ∈ rows, row.nodeId = node ∧ row.type = type := by
  obtain ⟨row, hfind, htype⟩ := Option.map_eq_some_iff.mp h
  exact ⟨row, mem_of_find?_eq_some hfind, by simpa using find?_some hfind, htype⟩

lemma OneRowEach.nodup_list (h : OneRowEach rows) : (getNodeListByType n type rows).Nodup := by
  have hsub : ((rows.filter fun row => row.type = type).map nodeId).Sublist (rows.map nodeId) :=
    filter_sublist.map _
  exact (getNodeListByType_sublist.trans hsub).nodup h

lemma OneRowEach.typeOf_of_mem_list (h : OneRowEach rows) (hnode : node ∈ getNodeListByType n type rows) :
    typeOf rows node = some type := by
  obtain ⟨row, hrow, rfl⟩ := mem_map.mp (getNodeListByType_sublist.subset hnode)
  obtain ⟨hrow, htype⟩ := mem_filter.mp hrow
  rw [h.typeOf_eq hrow]
  simpa using htype

end

namespace WorkingSealerManagerImpl

variable {ctx : ExecutiveContext}

section

lemma swap_perm (nodes : List NodeID) (i j : ℕ) : (swap nodes i j).Perm nodes := by
  unfold swap
  split
  case isTrue h => exact set_set_perm h.1 h.2
  case isFalse => exact .refl nodes

lemma shuffle_perm (ctx : ExecutiveContext) (i proofHashValue : ℕ) (nodes : List NodeID) :
    (shuffle ctx i proofHashValue nodes).Perm nodes := by
  induction i generalizing proofHashValue nodes with
  | zero => exact .refl nodes
  | succ i ih => exact (ih _ _).trans (swap_perm nodes _ _)

variable {proofHash : ℕ} {nodeList nodes : List NodeID} {count : Int}

lemma selectNodesFromList_eq (ctx : ExecutiveContext) (proofHash : ℕ) (nodeList : List NodeID) :
    ∃ shuffled : List NodeID, shuffled.Perm nodeList ∧ ∀ count : Int, selectNodesFromList ctx proofHash nodeList count =
        if count ≤ nodeList.length then .ok (shuffled.take count.toNat) else .error .undefinedBehaviour := by
  have hperm := (shuffle_perm ctx (nodeList.length - 1) proofHash
    (nodeList.insertionSort (· ≤ ·))).trans (nodeList.perm_insertionSort (· ≤ ·))
  refine ⟨_, hperm, fun count => ?_⟩
  unfold selectNodesFromList
  dsimp only
  rw [hperm.length_eq]

lemma selectNodesFromList_ok (h : selectNodesFromList ctx proofHash nodeList count = .ok nodes) :
    nodes.length = count.toNat ∧ nodes ⊆ nodeList ∧ (nodeList.Nodup → nodes.Nodup) := by
  obtain ⟨shuffled, hperm, heq⟩ := selectNodesFromList_eq ctx proofHash nodeList
  rw [heq] at h
  split at h
  case isTrue hle =>
    cases h
    refine ⟨?_, ?_, ?_⟩
    · rw [length_take, hperm.length_eq]
      omega
    · intro node hnode
      exact hperm.subset (mem_of_mem_take hnode)
    · intro hnodup
      exact (take_sublist _ _).nodup (hperm.nodup_iff.mpr hnodup)
  case isFalse => cases h

end

section

open Journal.Store

variable {s s' : TableFactory} {nodeType : NodeType} {nodes : List NodeID}

def retype (ctx : ExecutiveContext) (nodeType : NodeType) (nodes : List NodeID) (row : NodeRow) : NodeRow :=
  if row.nodeId ∈ nodes then { row with type := nodeType, enableNum := .number (ctx.number + 1) } else row

lemma retype_nodeId {row : NodeRow} : (retype ctx nodeType nodes row).nodeId = row.nodeId := by
  unfold retype
  split <;> rfl

lemma retype_nil : retype ctx nodeType [] = id := by
  funext row
  simp [retype]

lemma map_nodeId_retype (rows : List NodeRow) :
    (rows.map (retype ctx nodeType nodes)).map nodeId = rows.map nodeId := by
  rw [map_map]
  exact map_congr_left fun row _ => retype_nodeId

lemma typeOf_retype (rows : List NodeRow) (node : NodeID) : typeOf (rows.map (retype ctx nodeType nodes)) node =
      if node ∈ nodes then (typeOf rows node).map fun _ => nodeType else typeOf rows node := by
  unfold typeOf
  rw [find?_map]
  simp only [Function.comp_def, retype_nodeId, Option.map_map]
  cases hfind : rows.find? fun row => row.nodeId = node with
  | none => simp
  | some row =>
    have hrow : row.nodeId = node := by simpa using find?_some hfind
    simp only [Option.map_some, retype, hrow]
    split <;> rfl

structure Retyped (ctx : ExecutiveContext) (nodeType : NodeType) (nodes : List NodeID)
    (s s' : TableFactory) : Prop where
  nodeRows : s'.nodeRows = s.nodeRows.map (retype ctx nodeType nodes)
  configRows : s'.configRows = s.configRows

lemma updateNodeType_ok {node : NodeID} (h : updateNodeType ctx node nodeType s = .ok s') :
    Retyped ctx nodeType [node] s s' := by
  unfold updateNodeType at h
  split at h
  case isTrue => cases h
  case isFalse =>
    cases h
    constructor
    · unfold TableFactory.nodeRows
      rw [rows_update_self]
      simp [retype]
    · exact rows_update_of_ne s (by decide)

lemma updateNodeTypes_ok (h : updateNodeTypes ctx nodeType nodes s = (.ok (), s')) :
    Retyped ctx nodeType nodes s s' := by
  induction nodes generalizing s with
  | nil =>
    cases h
    refine ⟨?_, rfl⟩
    rw [retype_nil, map_id]
  | cons node nodes ih =>
    unfold updateNodeTypes at h
    split at h
    case h_1 => cases h
    case h_2 s₁ hfirst =>
      have hfirst := updateNodeType_ok hfirst
      have hrest := ih h
      refine ⟨?_, hrest.configRows.trans hfirst.configRows⟩
      rw [hrest.nodeRows, hfirst.nodeRows, map_map]
      refine map_congr_left fun row _ => ?_
      simp only [Function.comp_apply, retype, mem_cons]
      by_cases hnode : row.nodeId = node <;> by_cases hnodes : row.nodeId ∈ nodes <;>
        simp [hnode, hnodes]

lemma updateNodeTypes_writes : Relation.ReflTransGen Write s (updateNodeTypes ctx nodeType nodes s).2 := by
  induction nodes generalizing s with
  | nil => exact .refl
  | cons node nodes ih =>
    unfold updateNodeTypes
    split
    case h_1 => exact .refl
    case h_2 s₁ hfirst =>
      unfold updateNodeType at hfirst
      split at hfirst
      case isTrue => cases hfirst
      case isFalse =>
        cases hfirst
        exact .head (.update ..) ih

end

end WorkingSealerManagerImpl

end FiscoBcos
