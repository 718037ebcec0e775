import FiscoBcos.Lib.Except
import FiscoBcos.Precompiled.NodeTypes

/-!
# One rotation

The number of working sealers after `rotateWorkingSealer`. A rotation brings it to the epoch size that
the manager holds, which `shouldRotate` reads from the table on all paths but one.
-/

namespace FiscoBcos

open List Journal.Store

variable {key : ConfigKey} {enableNumber : Int} {value : FieldText}

namespace WorkingSealerManagerImpl

variable {ctx : ExecutiveContext}

section

open Journal.Store

variable {m : WorkingSealerManagerImpl} {s s' : TableFactory} {nodeList nodes : List NodeID}
  {count : Int} {nodeType : NodeType}

lemma rotateNodes_ok (h : m.rotateNodes ctx nodeList count nodeType s = (.ok nodes, s')) :
    Retyped ctx nodeType nodes s s' ∧ nodes.length = count.toNat ∧ nodes ⊆ nodeList ∧
      (nodeList.Nodup → nodes.Nodup) := by
  unfold rotateNodes at h
  split at h
  case isTrue hcount =>
    split at h
    case h_1 => cases h
    case h_2 info hinfo =>
      split at h
      case h_1 => cases h
      case h_2 selected hselect =>
        split at h
        case h_1 => cases h
        case h_2 s₁ hupdate =>
          cases h
          exact ⟨updateNodeTypes_ok hupdate, selectNodesFromList_ok hselect⟩
  case isFalse hcount =>
    cases h
    refine ⟨updateNodeTypes_ok rfl, ?_, nil_subset _, fun _ => nodup_nil⟩
    rw [length_nil]
    omega

lemma rotateNodes_writes : Relation.ReflTransGen Write s (m.rotateNodes ctx nodeList count nodeType s).2 := by
  unfold rotateNodes
  split
  case isTrue =>
    split
    · exact .refl
    split
    · exact .refl
    · have hwrites := @updateNodeTypes_writes ctx s nodeType ‹List NodeID›
      split <;> simp_all
  case isFalse => exact .refl

structure Rotated (ctx : ExecutiveContext) (m : WorkingSealerManagerImpl) (s : TableFactory)
    (selected : SelectedNodes) (s' : TableFactory) : Prop where
  removed_subset : selected.removed ⊆ m.workingSealerList
  inserted_subset : selected.inserted ⊆ m.pendingSealerList
  removed_nodup : m.workingSealerList.Nodup → selected.removed.Nodup
  inserted_nodup : m.pendingSealerList.Nodup → selected.inserted.Nodup
  nodeRows : s'.nodeRows = (s.nodeRows.map (retype ctx .sealer selected.removed)).map
    (retype ctx .workingSealer selected.inserted)
  configRows : s'.configRows = s.configRows

variable {selected : SelectedNodes}

/-- A rotation that returns has brought the working sealers to the epoch size that the manager holds, unless there are
too few sealers for it to do anything. If their number was right it has replaced at most one. -/
theorem rotateSealers_ok (h : m.rotateSealers ctx s = (.ok selected, s')) : Rotated ctx m s selected s' ∧
      (m.workingSealerList.length - selected.removed.length + selected.inserted.length : Int) =
        (if m.sealersNum ≤ 1 then (m.workingSealerList.length : Int)
        else min m.configuredEpochSealersSize m.sealersNum) ∧
      ((m.workingSealerList.length : Int) = min m.configuredEpochSealersSize m.sealersNum →
        selected.removed.length ≤ 1 ∧ selected.inserted.length ≤ 1) := by
  have hnum : m.sealersNum = m.workingSealerList.length + m.pendingSealerList.length := rfl
  unfold rotateSealers at h
  split at h
  case isTrue hfew =>
    cases h
    refine ⟨⟨nil_subset _, nil_subset _, fun _ => nodup_nil, fun _ => nodup_nil, ?_, rfl⟩,
      ?_, fun _ => ⟨Nat.zero_le 1, Nat.zero_le 1⟩⟩
    · rw [retype_nil, retype_nil, map_id, map_id]
    · dsimp only [length_nil]
      split <;> omega
  case isFalse hfew =>
    dsimp only at h
    split at h
    case h_1 => cases h
    case h_2 removed s₁ hremove =>
      split at h
      case h_1 => cases h
      case h_2 inserted s₂ hinsert =>
        cases h
        obtain ⟨hretype₁, hlen₁, hsub₁, hnodup₁⟩ := rotateNodes_ok hremove
        obtain ⟨hretype₂, hlen₂, hsub₂, hnodup₂⟩ := rotateNodes_ok hinsert
        refine ⟨⟨hsub₁, hsub₂, hnodup₁, hnodup₂, ?_, hretype₂.configRows.trans hretype₁.configRows⟩, ?_⟩
        · rw [hretype₂.nodeRows, hretype₁.nodeRows]
        rw [if_neg (by omega), hlen₁, hlen₂]
        unfold calNodeRotatingInfo
        dsimp only
        split_ifs <;> dsimp only <;> constructor <;> omega

lemma rotateSealers_writes : Relation.ReflTransGen Write s (m.rotateSealers ctx s).2 := by
  unfold rotateSealers
  split
  case isTrue => exact .refl
  case isFalse =>
    dsimp only
    have hfirst := @rotateNodes_writes ctx m s m.workingSealerList m.calNodeRotatingInfo.removedWorkingSealerNum .sealer
    split
    case h_1 e s₁ hremove =>
      rw [hremove] at hfirst
      exact hfirst
    case h_2 removed s₁ hremove =>
      rw [hremove] at hfirst
      have hsecond := @rotateNodes_writes ctx m s₁ m.pendingSealerList
        m.calNodeRotatingInfo.insertedWorkingSealerNum .workingSealer
      split
      case h_1 e s₂ hinsert =>
        rw [hinsert] at hsecond
        exact hfirst.trans hsecond
      case h_2 inserted s₂ hinsert =>
        rw [hinsert] at hsecond
        exact hfirst.trans hsecond

end

section

variable {m m' : WorkingSealerManagerImpl} {s : TableFactory} {rotate : Bool}

lemma getSealerList_getSealerList : (m.getSealerList ctx s).getSealerList ctx s = m.getSealerList ctx s := by
  unfold getSealerList
  split
  case isTrue => rfl
  case isFalse => rfl

lemma getSealerList_new (h : m.sealerListObtained = false) : m.getSealerList ctx s = { m with
      pendingSealerList := getNodeListByType ctx.number .sealer s.nodeRows
      workingSealerList := getNodeListByType ctx.number .workingSealer s.nodeRows, sealerListObtained := true } := by
  unfold getSealerList
  rw [if_neg (Bool.eq_false_iff.mp h)]

lemma lexicalCast_ok {text : FieldText} {n : Int} (h : lexicalCast text = .ok n) : text = .number n := by
  unfold lexicalCast at h
  split at h
  case h_1 v hv =>
    cases h
    cases text with
    | number =>
      simp only [FieldText.toInt64, Option.ite_none_right_eq_some, Option.some.injEq] at hv
      rw [hv.2]
    | empty | other => cases hv
  case h_2 => cases h

lemma getConfig_ok {info : FieldText × Int} (h : getConfig ctx key s = .ok info) :
    getSysteConfigByKey key ctx.number s.configRows = some info := by
  unfold getConfig at h
  split at h
  case h_1 info' hinfo =>
    cases h
    exact hinfo
  case h_2 => cases h

lemma epochEnds_ok (h : epochEnds ctx enableNumber m s = .ok (m', rotate)) : m' = m ∨ m' = m.getSealerList ctx s := by
  unfold epochEnds at h
  dsimp only at h
  split_ifs at h
  · cases h
    exact .inl rfl
  · cases h
    exact .inr rfl
  · obtain ⟨info, -, h⟩ := Except.bind_eq_ok_iff.mp h
    obtain ⟨epochBlockNum, -, h⟩ := Except.bind_eq_ok_iff.mp h
    split at h
    case isTrue => cases h
    case isFalse =>
      cases h
      exact .inr rfl

/-- The epoch size comes from the table unless the flag is set; the lists come from the table, then or when they are
needed. -/
theorem shouldRotate_ok (h : m.shouldRotate ctx s = .ok (m', rotate)) :
    ∃ setted epochSize, notifyRotateFlag ctx s = .ok setted ∧ m'.getSealerList ctx s = getSealerList ctx
        { m with notifyNextLeaderRotateSetted := setted, configuredEpochSealersSize := epochSize } s ∧
      m'.notifyNextLeaderRotateSetted = setted ∧ if setted then epochSize = m.configuredEpochSealersSize ∧ rotate = true
      else ∃ info, getConfig ctx .epochSealerNum s = .ok info ∧ lexicalCast info.1 = .ok epochSize := by
  obtain ⟨setted, hflag, h⟩ := Except.bind_eq_ok_iff.mp h
  cases setted with
  | true =>
    cases h
    exact ⟨true, m.configuredEpochSealersSize, hflag, rfl, rfl, rfl, rfl⟩
  | false =>
    obtain ⟨info, hinfo, h⟩ := Except.bind_eq_ok_iff.mp h
    obtain ⟨epochSize, hepoch, h⟩ := Except.bind_eq_ok_iff.mp h
    refine ⟨false, epochSize, hflag, ?_, ?_, info, hinfo, hepoch⟩
    · rcases epochEnds_ok h with rfl | rfl
      · rfl
      · exact getSealerList_getSealerList
    rcases epochEnds_ok h with rfl | rfl
    · rfl
    · unfold getSealerList
      split <;> rfl

lemma checkVRFInfos_ok (h : m.checkVRFInfos ctx s = .ok m') : m' = m.getSealerList ctx s := by
  unfold checkVRFInfos at h
  split at h
  case h_1 => cases h
  case h_2 =>
    dsimp only at h
    split_ifs at h
    cases h
    rfl

lemma nodeRows_setSystemConfigByKey : (setSystemConfigByKey key value enableNumber s).nodeRows = s.nodeRows := by
  unfold setSystemConfigByKey
  split
  · exact rows_insert_of_ne s (by decide) _
  · exact rows_update_of_ne s (by decide)

lemma filter_setSystemConfigByKey {key' : ConfigKey} (h : key' ≠ key) :
    ((setSystemConfigByKey key value enableNumber s).configRows.filter fun row => row.key = key') =
      s.configRows.filter fun row => row.key = key' := by
  unfold setSystemConfigByKey TableFactory.configRows
  split
  · rw [rows_insert_self, filter_append]
    simp [h.symm]
  rw [rows_update_self]
  generalize s.rows .config = rows
  induction rows with
  | nil => rfl
  | cons row rows ih =>
    by_cases hrow : row.key = key
    · simpa [hrow, h.symm] using ih
    · simp only [decide_eq_true_eq] at ih
      simp [hrow, filter_cons, ih]

lemma nodeRows_tryToResetNotifyNextLeaderFlag : (m.tryToResetNotifyNextLeaderFlag ctx s).nodeRows = s.nodeRows := by
  unfold tryToResetNotifyNextLeaderFlag
  split
  · exact nodeRows_setSystemConfigByKey
  · rfl

lemma filter_tryToResetNotifyNextLeaderFlag (h : key ≠ .notifyRotate) :
    ((m.tryToResetNotifyNextLeaderFlag ctx s).configRows.filter fun row => row.key = key) =
      s.configRows.filter fun row => row.key = key := by
  unfold tryToResetNotifyNextLeaderFlag
  split
  · exact filter_setSystemConfigByKey h
  · rfl

end

end WorkingSealerManagerImpl

section Sealers

variable (ctx : ExecutiveContext) (s : TableFactory)

def workingSealers : List NodeID :=
  getNodeListByType ctx.number .workingSealer s.nodeRows

def pendingSealers : List NodeID :=
  getNodeListByType ctx.number .sealer s.nodeRows

def sealers : Finset NodeID :=
  (workingSealers ctx s).toFinset ∪ (pendingSealers ctx s).toFinset

def ofType (nodes : Finset NodeID) (type : NodeType) : Finset NodeID :=
  nodes.filter fun node => typeOf s.nodeRows node = some type

/-- As many sealers work as should, none is lost, and exactly the selected nodes have moved. -/
structure KeepsWorkingSealers (epochSealerNum : Int) (selected : SelectedNodes) (s' : TableFactory) :
    Prop where
  working : ((ofType s' (sealers ctx s) .workingSealer).card : Int) = min epochSealerNum (sealers ctx s).card
  union : ofType s' (sealers ctx s) .workingSealer ∪ ofType s' (sealers ctx s) .sealer = sealers ctx s
  disjoint : Disjoint (ofType s' (sealers ctx s) .workingSealer) (ofType s' (sealers ctx s) .sealer)
  nodup : (selected.removed ++ selected.inserted).Nodup
  moved_iff : ∀ node, typeOf s'.nodeRows node ≠ typeOf s.nodeRows node ↔ node ∈ selected.removed ++ selected.inserted

variable {ctx s}

lemma mem_sealers {node : NodeID} :
    node ∈ sealers ctx s ↔ node ∈ workingSealers ctx s ∨ node ∈ pendingSealers ctx s := by
  simp [sealers]

section

variable (hrows : OneRowEach s.nodeRows) {node : NodeID}

include hrows

lemma typeOf_workingSealers (h : node ∈ workingSealers ctx s) : typeOf s.nodeRows node = some .workingSealer :=
  hrows.typeOf_of_mem_list h

lemma typeOf_pendingSealers (h : node ∈ pendingSealers ctx s) : typeOf s.nodeRows node = some .sealer :=
  hrows.typeOf_of_mem_list h

lemma disjoint_sealers : Disjoint (workingSealers ctx s).toFinset (pendingSealers ctx s).toFinset := by
  rw [Finset.disjoint_left]
  intro node hworking hpending
  have hworking := typeOf_workingSealers hrows (mem_toFinset.mp hworking)
  rw [typeOf_pendingSealers hrows (mem_toFinset.mp hpending)] at hworking
  cases hworking

lemma nodup_workingSealers : (workingSealers ctx s).Nodup :=
  hrows.nodup_list

lemma nodup_pendingSealers : (pendingSealers ctx s).Nodup :=
  hrows.nodup_list

lemma card_sealers : (sealers ctx s).card = (workingSealers ctx s).length + (pendingSealers ctx s).length := by
  unfold sealers
  rw [Finset.card_union_of_disjoint (disjoint_sealers hrows), toFinset_card_of_nodup (nodup_workingSealers hrows),
    toFinset_card_of_nodup (nodup_pendingSealers hrows)]

lemma length_add_length : ((workingSealers ctx s).length : Int) + (pendingSealers ctx s).length =
    (sealers ctx s).card := by
  rw [card_sealers hrows]
  rfl

end

lemma card_replace {working pending : Finset NodeID} {removed inserted : List NodeID}
    (hdisjoint : Disjoint working pending) (hremoved : removed.Nodup) (hinserted : inserted.Nodup)
    (hworking : ∀ node ∈ removed, node ∈ working) (hpending : ∀ node ∈ inserted, node ∈ pending) :
    ((((working \ removed.toFinset) ∪ inserted.toFinset).card : ℕ) : Int) =
      working.card - removed.length + inserted.length := by
  have hsub : removed.toFinset ⊆ working := fun node hnode => hworking node (mem_toFinset.mp hnode)
  have hsub' : inserted.toFinset ⊆ pending := fun node hnode => hpending node (mem_toFinset.mp hnode)
  have hle := Finset.card_le_card hsub
  rw [Finset.card_union_of_disjoint (hdisjoint.mono Finset.sdiff_subset hsub'), Finset.card_sdiff_of_subset hsub]
  rw [toFinset_card_of_nodup hremoved] at hle ⊢
  rw [toFinset_card_of_nodup hinserted]
  omega

namespace WorkingSealerManagerImpl.Rotated

variable {m : WorkingSealerManagerImpl} {s₁ s' : TableFactory} {selected : SelectedNodes}
  (h : Rotated ctx m s₁ selected s') (hs₁ : s₁.nodeRows = s.nodeRows)
  (hworking : m.workingSealerList = workingSealers ctx s)
  (hpending : m.pendingSealerList = pendingSealers ctx s) (hrows : OneRowEach s.nodeRows)

include h hs₁ hworking hpending hrows

lemma typeOf_eq (node : NodeID) : typeOf s'.nodeRows node = if node ∈ selected.inserted then some .workingSealer
    else if node ∈ selected.removed then some .sealer else typeOf s.nodeRows node := by
  rw [h.nodeRows, typeOf_retype, typeOf_retype, hs₁]
  have hremoved : node ∈ selected.removed → typeOf s.nodeRows node = some .workingSealer := by
    intro hnode
    exact typeOf_workingSealers hrows (hworking ▸ h.removed_subset hnode)
  have hinserted : node ∈ selected.inserted → typeOf s.nodeRows node = some .sealer := by
    intro hnode
    exact typeOf_pendingSealers hrows (hpending ▸ h.inserted_subset hnode)
  split_ifs <;> simp_all

lemma ofType_workingSealer : ofType s' (sealers ctx s) .workingSealer =
    ((workingSealers ctx s).toFinset \ selected.removed.toFinset) ∪ selected.inserted.toFinset := by
  have htype := h.typeOf_eq hs₁ hworking hpending hrows
  ext node
  simp only [ofType, Finset.mem_filter, mem_sealers, Finset.mem_union, Finset.mem_sdiff, mem_toFinset, htype]
  constructor
  · rintro ⟨hnode, hnow⟩
    split_ifs at hnow with hinserted hremoved
    · exact .inr hinserted
    · cases hnow
    · rcases hnode with hnode | hnode
      · exact .inl ⟨hnode, hremoved⟩
      · rw [typeOf_pendingSealers hrows hnode] at hnow
        cases hnow
  · rintro (⟨hnode, hremoved⟩ | hinserted)
    · refine ⟨.inl hnode, ?_⟩
      rw [if_neg hremoved, typeOf_workingSealers hrows hnode, ite_self]
    · exact ⟨.inr (hpending ▸ h.inserted_subset hinserted), if_pos hinserted⟩

lemma card_ofType_workingSealer : ((ofType s' (sealers ctx s) .workingSealer).card : Int) =
    (workingSealers ctx s).length - selected.removed.length + selected.inserted.length := by
  rw [h.ofType_workingSealer hs₁ hworking hpending hrows,
    card_replace (disjoint_sealers hrows) (h.removed_nodup (hworking ▸ nodup_workingSealers hrows))
      (h.inserted_nodup (hpending ▸ nodup_pendingSealers hrows)),
    toFinset_card_of_nodup (nodup_workingSealers hrows)]
  · intro node hnode
    exact mem_toFinset.mpr (hworking ▸ h.removed_subset hnode)
  · intro node hnode
    exact mem_toFinset.mpr (hpending ▸ h.inserted_subset hnode)

lemma union_ofType : ofType s' (sealers ctx s) .workingSealer ∪ ofType s' (sealers ctx s) .sealer = sealers ctx s := by
  have htype := h.typeOf_eq hs₁ hworking hpending hrows
  unfold ofType
  rw [← Finset.filter_or, Finset.filter_eq_self]
  intro node hnode
  rw [htype]
  split_ifs
  · exact .inl rfl
  · exact .inr rfl
  · rcases mem_sealers.mp hnode with hnode | hnode
    · exact .inl (typeOf_workingSealers hrows hnode)
    · exact .inr (typeOf_pendingSealers hrows hnode)

omit hs₁ in
lemma nodup_selected : (selected.removed ++ selected.inserted).Nodup := by
  refine nodup_append.mpr ⟨h.removed_nodup (hworking ▸ nodup_workingSealers hrows),
    h.inserted_nodup (hpending ▸ nodup_pendingSealers hrows), ?_⟩
  rintro node hremoved _ hinserted rfl
  have hold := typeOf_workingSealers hrows (hworking ▸ h.removed_subset hremoved)
  rw [typeOf_pendingSealers hrows (hpending ▸ h.inserted_subset hinserted)] at hold
  cases hold

lemma moved_iff (node : NodeID) : typeOf s'.nodeRows node ≠ typeOf s.nodeRows node ↔
    node ∈ selected.removed ++ selected.inserted := by
  rw [h.typeOf_eq hs₁ hworking hpending hrows, mem_append]
  split_ifs with hinserted hremoved
  · rw [typeOf_pendingSealers hrows (hpending ▸ h.inserted_subset hinserted)]
    simp [hinserted]
  · rw [typeOf_workingSealers hrows (hworking ▸ h.removed_subset hremoved)]
    simp [hremoved]
  · simp [hinserted, hremoved]

end WorkingSealerManagerImpl.Rotated

open WorkingSealerManagerImpl

def epochSizeUsed (setted : Bool) (memory epochSealerNum : Int) : Int :=
  if setted then memory else epochSealerNum

section

variable {m m₁ m₂ : WorkingSealerManagerImpl} {epochSealerNum enableNumber : Int}
  (hepoch : getSysteConfigByKey .epochSealerNum ctx.number s.configRows = some (.number epochSealerNum, enableNumber))
  (hnew : m.sealerListObtained = false) (hrotate : m.shouldRotate ctx s = .ok (m₁, true))

include hepoch hnew hrotate

lemma checkVRFInfos_of_shouldRotate (hcheck : m₁.checkVRFInfos ctx s = .ok m₂) :
    ∃ setted, notifyRotateFlag ctx s = .ok setted ∧ m₂ = { m with
        configuredEpochSealersSize := epochSizeUsed setted m.configuredEpochSealersSize epochSealerNum
        pendingSealerList := pendingSealers ctx s, workingSealerList := workingSealers ctx s, sealerListObtained := true
        notifyNextLeaderRotateSetted := setted } := by
  obtain ⟨setted, epochSize, hflag, hlists, -, hsize⟩ := shouldRotate_ok hrotate
  have hepochSize : epochSize = epochSizeUsed setted m.configuredEpochSealersSize epochSealerNum := by
    cases setted with
    | true => exact hsize.1
    | false =>
      obtain ⟨info, hinfo, hcast⟩ := hsize
      have hinfo := getConfig_ok hinfo
      rw [hepoch] at hinfo
      cases hinfo
      exact (FieldText.number.inj (lexicalCast_ok hcast)).symm
  refine ⟨setted, hflag, ?_⟩
  rw [← hepochSize]
  exact (checkVRFInfos_ok hcheck).trans (hlists.trans (getSealerList_new hnew))

lemma rotateWorkingSealer_ok {s' : TableFactory} {selected : SelectedNodes}
    (hrows : OneRowEach s.nodeRows) (hreturn : m.rotateWorkingSealer ctx s = (.ok selected, s')) :
    ∃ m₂ s₁ setted, Rotated ctx m₂ s₁ selected s' ∧ s₁.nodeRows = s.nodeRows ∧
      (∀ key, key ≠ .notifyRotate → (s₁.configRows.filter fun row => row.key = key) =
        s.configRows.filter fun row => row.key = key) ∧
      m₂.workingSealerList = workingSealers ctx s ∧ m₂.pendingSealerList = pendingSealers ctx s ∧
      notifyRotateFlag ctx s = .ok setted ∧
      ((workingSealers ctx s).length - selected.removed.length + selected.inserted.length : Int) =
        (if ((sealers ctx s).card : Int) ≤ 1 then ((workingSealers ctx s).length : Int)
        else min (epochSizeUsed setted m.configuredEpochSealersSize epochSealerNum) (sealers ctx s).card) ∧
      (((workingSealers ctx s).length : Int) =
          min (epochSizeUsed setted m.configuredEpochSealersSize epochSealerNum) (sealers ctx s).card →
        selected.removed.length ≤ 1 ∧ selected.inserted.length ≤ 1) := by
  unfold rotateWorkingSealer at hreturn
  rw [hrotate] at hreturn
  dsimp only at hreturn
  split at hreturn
  case h_1 => cases hreturn
  case h_2 m₂ hcheck =>
    obtain ⟨hrotated, hcount, hone⟩ := rotateSealers_ok hreturn
    obtain ⟨setted, hflag, rfl⟩ := checkVRFInfos_of_shouldRotate hepoch hnew hrotate hcheck
    refine ⟨_, _, setted, hrotated, nodeRows_tryToResetNotifyNextLeaderFlag,
      fun _ => filter_tryToResetNotifyNextLeaderFlag, rfl, rfl, hflag, ?_, ?_⟩
    · rw [← length_add_length hrows]
      exact hcount
    · rw [← length_add_length hrows]
      exact hone

end

namespace WorkingSealerManagerPrecompiled

/-- A rotation keeps the configured number of working sealers if and only if a single sealer is of the right type
already, and the memory of the manager happens to hold a right epoch size whenever the flag `notify_rotate` is set. -/
theorem keepsWorkingSealers_iff {tx : RotateTx} {s' : TableFactory} {m₁ : WorkingSealerManagerImpl}
    {selected : SelectedNodes} {epochSealerNum enableNumber : Int} (hrows : OneRowEach s.nodeRows)
    (hepoch : getSysteConfigByKey .epochSealerNum ctx.number s.configRows = some (.number epochSealerNum, enableNumber))
    (hrotate : (manager tx).shouldRotate ctx s = .ok (m₁, true))
    (hreturn : rotateWorkingSealer ctx tx s = (.ok selected, s')) :
    KeepsWorkingSealers ctx s epochSealerNum selected s' ↔ ((sealers ctx s).card ≤ 1 →
        ((workingSealers ctx s).length : Int) = min epochSealerNum (sealers ctx s).card) ∧
      (1 < (sealers ctx s).card → notifyRotateFlag ctx s = .ok true →
        min tx.memory (sealers ctx s).card = min epochSealerNum (sealers ctx s).card) := by
  obtain ⟨m₂, s₁, setted, hrotated, hs₁, -, hworking, hpending, hflag, hcount, -⟩ :=
    rotateWorkingSealer_ok hepoch rfl hrotate hrows hreturn
  have hcard := hrotated.card_ofType_workingSealer hs₁ hworking hpending hrows
  rw [hcount] at hcard
  rw [hflag]
  have hiff : KeepsWorkingSealers ctx s epochSealerNum selected s' ↔
      ((ofType s' (sealers ctx s) .workingSealer).card : Int) = min epochSealerNum (sealers ctx s).card := by
    refine ⟨fun h => h.working, fun h => ⟨h, ?_, ?_, ?_, ?_⟩⟩
    · exact hrotated.union_ofType hs₁ hworking hpending hrows
    · unfold ofType
      rw [Finset.disjoint_filter]
      intro node _ hworking hsealer
      rw [hworking] at hsealer
      cases hsealer
    · exact hrotated.nodup_selected hworking hpending hrows
    · exact hrotated.moved_iff hs₁ hworking hpending hrows
  rw [hiff, hcard]
  by_cases hfew : (sealers ctx s).card ≤ 1
  · have hfew' : ((sealers ctx s).card : Int) ≤ 1 := by omega
    simp [hfew, hfew', not_lt.mpr hfew]
  · have hmany : 1 < (sealers ctx s).card := by omega
    have hmany' : ¬((sealers ctx s).card : Int) ≤ 1 := by omega
    cases setted <;> simp [hfew, hmany, hmany', epochSizeUsed, manager, createVRFInfo]

def trialContext : ExecutiveContext where
  number := 10
  hash := 7
  frozen := fun _ => false
  toAddress := id
  isValidVRFPublicKey := fun _ => true
  verifyProof := fun _ _ _ => true
  getHashFromProof := id
  hashOfIndex := id

def trialTables (epochSealerNum flag : Int) (working pending : List NodeID) : TableFactory :=
  .load [⟨.epochSealerNum, .number epochSealerNum, .number 0⟩, ⟨.epochBlockNum, .number 5, .number 0⟩,
      ⟨.notifyRotate, .number flag, .number 0⟩]
    (working.map (⟨·, .workingSealer, .number 0⟩) ++ pending.map (⟨·, .sealer, .number 0⟩))

def trialTx (origin : Address) (memory : Int) : RotateTx where
  origin := origin
  vrfPublicKey := 1
  vrfInput := 7
  vrfProof := 1
  memory := memory

theorem keepsWorkingSealers_two_of_four : ∃ selected s',
    rotateWorkingSealer trialContext (trialTx 1 0) (trialTables 2 0 [1, 2] [3, 4]) = (.ok selected, s') ∧
      KeepsWorkingSealers trialContext (trialTables 2 0 [1, 2] [3, 4]) 2 selected s' := by
  have hreturn : rotateWorkingSealer trialContext (trialTx 1 0) (trialTables 2 0 [1, 2] [3, 4]) = (.ok ⟨[1], [3]⟩, _) :=
    Prod.ext (by rfl) rfl
  obtain ⟨m₁, hrotate⟩ : ∃ m₁, (manager (trialTx 1 0)).shouldRotate trialContext
      (trialTables 2 0 [1, 2] [3, 4]) = .ok (m₁, true) :=
    ⟨_, rfl⟩
  refine ⟨_, _, hreturn, (keepsWorkingSealers_iff ?_ rfl hrotate hreturn).mpr ⟨?_, ?_⟩⟩
  · decide
  · decide
  · intro _ hflag
    cases hflag

/-- With the flag set the manager goes by its memory, here down to one working sealer although two are configured; and a
single pending sealer is left pending. -/
theorem not_keepsWorkingSealers : (∃ m₁ selected s', OneRowEach (trialTables 2 1 [1, 2] [3, 4]).nodeRows ∧
      (manager (trialTx 1 1)).shouldRotate trialContext (trialTables 2 1 [1, 2] [3, 4]) = .ok (m₁, true) ∧
      rotateWorkingSealer trialContext (trialTx 1 1) (trialTables 2 1 [1, 2] [3, 4]) = (.ok selected, s') ∧
      ¬KeepsWorkingSealers trialContext (trialTables 2 1 [1, 2] [3, 4]) 2 selected s') ∧
    (∃ m₁ selected s', OneRowEach (trialTables 2 0 [] [1]).nodeRows ∧
      (manager (trialTx 1 0)).shouldRotate trialContext (trialTables 2 0 [] [1]) = .ok (m₁, true) ∧
      rotateWorkingSealer trialContext (trialTx 1 0) (trialTables 2 0 [] [1]) = (.ok selected, s') ∧
      ¬KeepsWorkingSealers trialContext (trialTables 2 0 [] [1]) 2 selected s') := by
  refine ⟨⟨_, ⟨[1], []⟩, _, by decide, rfl, Prod.ext (by rfl) rfl, fun h => ?_⟩,
    ⟨_, ⟨[], []⟩, _, by decide, rfl, Prod.ext (by rfl) rfl, fun h => ?_⟩⟩
  · exact absurd h.working (by decide)
  · exact absurd h.working (by decide)

end WorkingSealerManagerPrecompiled

end Sealers

end FiscoBcos
