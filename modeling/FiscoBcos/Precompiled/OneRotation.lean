import FiscoBcos.Precompiled.RotationBlocks

/-!
# One block, one rotation

The working sealers over all the calls of a block, counted by their types. As long as every call either
finds all rows in force or finds no pending sealer, a block replaces at most one working sealer.
-/

namespace FiscoBcos

open WorkingSealerManagerImpl WorkingSealerManagerPrecompiled Finset Machine NodeRow

variable {ctx : ExecutiveContext} {epochSealerNum enableNumber : Int}

def NodeRow.inForce (number : Int) (row : NodeRow) : Bool :=
  row.enableNum.toInt.any fun enableNum => enableNum ≤ number

def SealersInForce (ctx : ExecutiveContext) (s : TableFactory) : Prop :=
  ∀ row ∈ s.nodeRows, row.type = .observer ∨ row.inForce ctx.number = true

instance (ctx : ExecutiveContext) (s : TableFactory) : Decidable (SealersInForce ctx s) :=
  inferInstanceAs (Decidable (∀ row ∈ s.nodeRows, _))

/-- A call does no harm: if the flag is set, the memory holds a right epoch size; and all rows are in force, or no
pending sealer is. -/
structure RotateSafe (ctx : ExecutiveContext) (epochSealerNum : Int) (s : TableFactory) (tx : RotateTx) :
    Prop where
  memory : notifyRotateFlag ctx s = .ok true →
    min tx.memory (sealers ctx s).card = min epochSealerNum (sealers ctx s).card
  settled : SealersInForce ctx s ∨ pendingSealers ctx s = []

section

variable {s s' : TableFactory} {type : NodeType} {node : NodeID}

def allOfType (s : TableFactory) (type : NodeType) : Finset NodeID :=
  ofType s (s.nodeRows.map nodeId).toFinset type

lemma mem_allOfType : node ∈ allOfType s type ↔ typeOf s.nodeRows node = some type := by
  simp only [allOfType, ofType, mem_filter, List.mem_toFinset, and_iff_right_iff_imp]
  intro htype
  obtain ⟨row, hrow, hid, -⟩ := exists_row_of_typeOf htype
  exact hid ▸ List.mem_map_of_mem hrow

lemma allOfType_congr (h : s'.nodeRows = s.nodeRows) (type : NodeType) : allOfType s' type = allOfType s type := by
  unfold allOfType ofType
  rw [h]

lemma disjoint_allOfType : Disjoint (allOfType s .workingSealer) (allOfType s .sealer) := by
  rw [disjoint_left]
  intro node hworking hsealer
  rw [mem_allOfType] at hworking hsealer
  rw [hworking] at hsealer
  cases hsealer

lemma getNodeListByType_of_inForce {rows : List NodeRow} {number : Int}
    (h : ∀ row ∈ rows, row.type = type → row.inForce number = true) :
    getNodeListByType number type rows = (rows.filter fun row => row.type = type).map nodeId := by
  induction rows with
  | nil => rfl
  | cons row rows ih =>
    have ih := ih fun row hrow => h row (List.mem_cons_of_mem _ hrow)
    unfold getNodeListByType
    split
    case isTrue htype =>
      have hforce := h row List.mem_cons_self htype
      unfold inForce at hforce
      cases henable : row.enableNum.toInt with
      | none =>
        rw [henable] at hforce
        cases hforce
      | some enableNum =>
        have hle : enableNum ≤ number := by simpa [henable] using hforce
        simp [hle, htype, ih]
    case isFalse htype => simpa [htype] using ih

section

variable (hrows : OneRowEach s.nodeRows)

include hrows

lemma toFinset_list_subset {number : Int} : (getNodeListByType number type s.nodeRows).toFinset ⊆ allOfType s type := by
  intro node hnode
  rw [List.mem_toFinset] at hnode
  exact mem_allOfType.mpr (hrows.typeOf_of_mem_list hnode)

lemma SealersInForce.toFinset_list (hsettled : SealersInForce ctx s) (htype : type ≠ .observer) :
    (getNodeListByType ctx.number type s.nodeRows).toFinset = allOfType s type := by
  apply (toFinset_list_subset hrows).antisymm
  intro node hnode
  have hforce : ∀ row ∈ s.nodeRows, row.type = type → row.inForce ctx.number = true := by
    intro row hrow hrowType
    rcases hsettled row hrow with hobserver | hforce
    · exact absurd (hrowType.symm.trans hobserver) htype
    · exact hforce
  obtain ⟨row, hrow, hid, hrowType⟩ := exists_row_of_typeOf (mem_allOfType.mp hnode)
  rw [List.mem_toFinset, getNodeListByType_of_inForce hforce]
  refine List.mem_map.mpr ⟨row, List.mem_filter.mpr ⟨hrow, ?_⟩, hid⟩
  simpa using hrowType

lemma SealersInForce.sealers_eq (hsettled : SealersInForce ctx s) :
    sealers ctx s = allOfType s .workingSealer ∪ allOfType s .sealer := by
  unfold sealers workingSealers pendingSealers
  rw [hsettled.toFinset_list hrows (by decide), hsettled.toFinset_list hrows (by decide)]

end

end

namespace WorkingSealerManagerImpl.Rotated

variable {s s₁ s' : TableFactory} {m : WorkingSealerManagerImpl} {selected : SelectedNodes}
  (h : Rotated ctx m s₁ selected s') (hs₁ : s₁.nodeRows = s.nodeRows)
  (hworking : m.workingSealerList = workingSealers ctx s) (hpending : m.pendingSealerList = pendingSealers ctx s)
  (hrows : OneRowEach s.nodeRows)

include h hs₁ hworking hpending hrows

lemma allOfType_workingSealer : allOfType s' .workingSealer =
    (allOfType s .workingSealer \ selected.removed.toFinset) ∪ selected.inserted.toFinset := by
  ext node
  rw [mem_allOfType, h.typeOf_eq hs₁ hworking hpending hrows, mem_union, mem_sdiff,
    mem_allOfType, List.mem_toFinset, List.mem_toFinset]
  split_ifs with hinserted hremoved
  · simp [hinserted]
  · simp [hinserted, hremoved]
  · simp [hinserted, hremoved]

lemma allOfType_union : allOfType s' .workingSealer ∪ allOfType s' .sealer =
    allOfType s .workingSealer ∪ allOfType s .sealer := by
  ext node
  rw [mem_union, mem_union, mem_allOfType, mem_allOfType, mem_allOfType, mem_allOfType,
    h.typeOf_eq hs₁ hworking hpending hrows]
  split_ifs with hinserted hremoved
  · simp [typeOf_pendingSealers hrows (hpending ▸ h.inserted_subset hinserted)]
  · simp [typeOf_workingSealers hrows (hworking ▸ h.removed_subset hremoved)]
  · rfl

lemma card_allOfType_workingSealer : ((allOfType s' .workingSealer).card : Int) =
    (allOfType s .workingSealer).card - selected.removed.length + selected.inserted.length := by
  rw [h.allOfType_workingSealer hs₁ hworking hpending hrows]
  apply card_replace (disjoint_allOfType (s := s)) (h.removed_nodup (hworking ▸ nodup_workingSealers hrows))
    (h.inserted_nodup (hpending ▸ nodup_pendingSealers hrows))
  · intro node hnode
    exact mem_allOfType.mpr (typeOf_workingSealers hrows (hworking ▸ h.removed_subset hnode))
  · intro node hnode
    exact mem_allOfType.mpr (typeOf_pendingSealers hrows (hpending ▸ h.inserted_subset hnode))

omit hpending in
lemma not_sealersInForce {node : NodeID} (hnode : node ∈ selected.removed) : ¬SealersInForce ctx s' := by
  intro hsettled
  obtain ⟨row, hrow, rfl, -⟩ := exists_row_of_typeOf (typeOf_workingSealers hrows (hworking ▸ h.removed_subset hnode))
  have hrow' := hsettled (retype ctx .workingSealer selected.inserted (retype ctx .sealer selected.removed row)) (by
      rw [h.nodeRows, hs₁]
      exact List.mem_map_of_mem (List.mem_map_of_mem hrow))
  have hforce : ∀ type, inForce ctx.number
      { row with type := type, enableNum := .number (ctx.number + 1) } = false := by
    intro type
    simp only [inForce, FieldText.toInt]
    split
    case isTrue => exact decide_eq_false (by omega)
    case isFalse => rfl
  unfold retype at hrow'
  split_ifs at hrow' <;> simp [hforce] at hrow'

omit hworking hpending in
lemma oneRowEach : OneRowEach s'.nodeRows := by
  unfold OneRowEach
  rw [h.nodeRows, map_nodeId_retype, map_nodeId_retype, hs₁]
  exact hrows

omit hworking hpending hrows in
lemma nodeRows_of_nil (hremoved : selected.removed = []) (hinserted : selected.inserted = []) :
    s'.nodeRows = s.nodeRows := by
  rw [h.nodeRows, hremoved, hinserted, retype_nil, retype_nil, List.map_id, List.map_id, hs₁]

end WorkingSealerManagerImpl.Rotated

section

variable {start s s' : TableFactory} {tx : RotateTx}

structure OneRotation (ctx : ExecutiveContext) (epochSealerNum enableNumber : Int)
    (start s : TableFactory) : Prop where
  rows : OneRowEach s.nodeRows
  config : ∀ key, key ≠ .notifyRotate → (s.configRows.filter fun row => row.key = key) =
    start.configRows.filter fun row => row.key = key
  epoch : getSysteConfigByKey .epochSealerNum ctx.number s.configRows = some (.number epochSealerNum, enableNumber)
  working : ((allOfType s .workingSealer).card : Int) =
    min epochSealerNum (allOfType s .workingSealer ∪ allOfType s .sealer).card
  became : (allOfType s .workingSealer \ allOfType start .workingSealer).card ≤ 1
  stopped : (allOfType start .workingSealer \ allOfType s .workingSealer).card ≤ 1
  /-- only a block that has not rotated has all rows in force -/
  unmoved : SealersInForce ctx s → allOfType s .workingSealer = allOfType start .workingSealer

lemma OneRotation.of_rows (h : OneRotation ctx epochSealerNum enableNumber start s) (hnodes : s'.nodeRows = s.nodeRows)
    (hconfig : ∀ key, key ≠ .notifyRotate → (s'.configRows.filter fun row => row.key = key) =
      s.configRows.filter fun row => row.key = key) : OneRotation ctx epochSealerNum enableNumber start s' where
  rows := hnodes ▸ h.rows
  config key hkey := (hconfig key hkey).trans (h.config key hkey)
  epoch := (getSysteConfigByKey_congr (hconfig _ (by decide))).trans h.epoch
  working := by
    rw [allOfType_congr hnodes, allOfType_congr hnodes]
    exact h.working
  became := by
    rw [allOfType_congr hnodes]
    exact h.became
  stopped := by
    rw [allOfType_congr hnodes]
    exact h.stopped
  unmoved hsettled := by
    rw [allOfType_congr hnodes]
    apply h.unmoved
    unfold SealersInForce at hsettled ⊢
    rwa [hnodes] at hsettled

lemma card_swap_le {old : Finset NodeID} {removed inserted : List NodeID} :
    (((old \ removed.toFinset) ∪ inserted.toFinset) \ old).card ≤ inserted.length ∧
      (old \ ((old \ removed.toFinset) ∪ inserted.toFinset)).card ≤ removed.length := by
  constructor <;> refine (card_le_card fun node hnode => ?_).trans (List.toFinset_card_le _)
  · simp only [mem_sdiff, mem_union] at hnode
    exact hnode.1.resolve_left fun hold => hnode.2 hold.1
  · simp only [mem_sdiff, mem_union, not_or, not_and, not_not] at hnode
    exact hnode.2.1 hnode.1

lemma OneRotation.rotated {selected : SelectedNodes} {m₁ : WorkingSealerManagerImpl}
    (h : OneRotation ctx epochSealerNum enableNumber start s) (hsafe : RotateSafe ctx epochSealerNum s tx)
    (hrotate : (manager tx).shouldRotate ctx s = .ok (m₁, true))
    (hreturn : rotateWorkingSealer ctx tx s = (.ok selected, s')) :
    OneRotation ctx epochSealerNum enableNumber start s' := by
  obtain ⟨m₂, s₁, setted, hrotated, hs₁, hconfig, hworking, hpending, hflag, hcount, hone⟩ :=
    rotateWorkingSealer_ok h.epoch rfl hrotate h.rows hreturn
  have hconfig : ∀ key, key ≠ .notifyRotate → (s'.configRows.filter fun row => row.key = key) =
      s.configRows.filter fun row => row.key = key := by
    intro key hkey
    rw [hrotated.configRows]
    exact hconfig key hkey
  have hsize : min (epochSizeUsed setted tx.memory epochSealerNum) ((sealers ctx s).card : Int) =
      min epochSealerNum (sealers ctx s).card := by
    cases setted with
    | true => exact hsafe.memory hflag
    | false => rfl
  change _ = (if _ then _ else min (epochSizeUsed setted tx.memory epochSealerNum) _) at hcount
  change _ = min (epochSizeUsed setted tx.memory epochSealerNum) _ → _ at hone
  rw [hsize] at hcount hone
  have hcard : (sealers ctx s).card = (workingSealers ctx s).length + (pendingSealers ctx s).length :=
    card_sealers h.rows
  rcases hsafe.settled with hsettled | hnone
  · -- the lists hold all sealers, and as many of them work as should
    have hW : (workingSealers ctx s).length = (allOfType s .workingSealer).card := by
      rw [← List.toFinset_card_of_nodup (nodup_workingSealers h.rows)]
      exact congrArg card (hsettled.toFinset_list h.rows (by decide))
    have hwork : ((workingSealers ctx s).length : Int) = min epochSealerNum (sealers ctx s).card := by
      rw [hW, hsettled.sealers_eq h.rows]
      exact h.working
    obtain ⟨hremoved, hinserted⟩ := hone hwork
    have hsame : selected.removed.length = selected.inserted.length := by
      rw [← hwork, ite_self] at hcount
      omega
    by_cases hmoved : selected.removed = []
    · have hinserted : selected.inserted = [] := by
        rw [hmoved] at hsame
        exact List.length_eq_zero_iff.mp hsame.symm
      exact h.of_rows (hrotated.nodeRows_of_nil hs₁ hmoved hinserted) hconfig
    obtain ⟨node, hnode⟩ := List.exists_mem_of_ne_nil _ hmoved
    have hset := hrotated.allOfType_workingSealer hs₁ hworking hpending h.rows
    have hstart := h.unmoved hsettled
    exact {
      rows := hrotated.oneRowEach hs₁ h.rows
      config := fun key hkey => (hconfig key hkey).trans (h.config key hkey)
      epoch := (getSysteConfigByKey_congr (hconfig _ (by decide))).trans h.epoch
      working := by
        rw [hrotated.allOfType_union hs₁ hworking hpending h.rows, ← h.working,
          hrotated.card_allOfType_workingSealer hs₁ hworking hpending h.rows, hsame]
        omega
      became := by
        rw [hset, ← hstart]
        exact card_swap_le.1.trans hinserted
      stopped := by
        rw [hset, ← hstart]
        exact card_swap_le.2.trans hremoved
      unmoved := fun hsettled' => absurd hsettled' (hrotated.not_sealersInForce hs₁ hworking h.rows hnode) }
  · -- all sealers in the lists work, and they are not too many
    have hinserted : selected.inserted = [] := by
      have hsub := hrotated.inserted_subset
      rw [hpending, hnone] at hsub
      exact List.eq_nil_of_subset_nil hsub
    have hW : (workingSealers ctx s).length ≤ (allOfType s .workingSealer).card := by
      rw [← List.toFinset_card_of_nodup (nodup_workingSealers h.rows)]
      exact card_le_card (toFinset_list_subset h.rows)
    have hle : ((allOfType s .workingSealer).card : Int) ≤ epochSealerNum := by
      rw [h.working]
      exact min_le_left _ _
    rw [hnone, List.length_nil, add_zero] at hcard
    rw [hcard, min_eq_right (by omega), ite_self, hinserted, List.length_nil] at hcount
    have hremoved : selected.removed = [] := by
      apply List.length_eq_zero_iff.mp
      omega
    exact h.of_rows (hrotated.nodeRows_of_nil hs₁ hremoved hinserted) hconfig

end

section

variable {s : TableFactory} {m : WorkingSealerManagerImpl}

lemma updateNodeTypes_ne_undefined {nodeType : NodeType} {nodes : List NodeID} :
    (updateNodeTypes ctx nodeType nodes s).1 ≠ .error .undefinedBehaviour := by
  induction nodes generalizing s with
  | nil => exact (nomatch ·)
  | cons node nodes ih =>
    unfold updateNodeTypes
    split
    case h_1 e hfirst =>
      unfold updateNodeType at hfirst
      split at hfirst
      case isTrue =>
        cases hfirst
        exact (nomatch ·)
      case isFalse => cases hfirst
    case h_2 => exact ih

lemma rotateNodes_ne_undefined {nodeList : List NodeID} {count : Int} {nodeType : NodeType} (hinfo : m.vrfInfo ≠ none)
    (hcount : count ≤ nodeList.length) : (m.rotateNodes ctx nodeList count nodeType s).1 ≠ .error .undefinedBehaviour := by
  unfold rotateNodes
  split
  case isTrue =>
    split
    case h_1 hnone => exact absurd hnone hinfo
    case h_2 info _ =>
      obtain ⟨shuffled, -, hselect⟩ := selectNodesFromList_eq ctx (ctx.getHashFromProof info.vrfProof) nodeList
      rw [hselect, if_pos hcount]
      dsimp only
      have hupdate := @updateNodeTypes_ne_undefined ctx s nodeType (shuffled.take count.toNat)
      split
      case h_1 e s₁ herror =>
        rw [herror] at hupdate
        exact fun h => hupdate (by cases h; rfl)
      case h_2 => exact (nomatch ·)
  case isFalse => exact (nomatch ·)

lemma rotateSealers_ne_undefined (hinfo : m.vrfInfo ≠ none)
    (hsize : m.sealersNum ≤ 1 ∨ 0 < m.configuredEpochSealersSize) :
    (m.rotateSealers ctx s).1 ≠ .error .undefinedBehaviour := by
  have hnum : m.sealersNum = m.workingSealerList.length + m.pendingSealerList.length := rfl
  unfold rotateSealers
  split
  case isTrue => exact (nomatch ·)
  case isFalse hfew =>
    have hcounts : m.calNodeRotatingInfo.removedWorkingSealerNum ≤ m.workingSealerList.length ∧
        m.calNodeRotatingInfo.insertedWorkingSealerNum ≤ m.pendingSealerList.length := by
      unfold calNodeRotatingInfo
      dsimp only
      split_ifs <;> dsimp only <;> omega
    dsimp only
    have hremove := @rotateNodes_ne_undefined ctx s m _ _ .sealer hinfo hcounts.1
    split
    case h_1 e s₁ herror =>
      rw [herror] at hremove
      exact fun h => hremove (by cases h; rfl)
    case h_2 removed s₁ _ =>
      have hinsert := @rotateNodes_ne_undefined ctx s₁ m _ _ .workingSealer hinfo hcounts.2
      split
      case h_1 e s₂ herror =>
        rw [herror] at hinsert
        exact fun h => hinsert (by cases h; rfl)
      case h_2 => exact (nomatch ·)

lemma lexicalCast_ne_undefined {text : FieldText} : lexicalCast text ≠ .error .undefinedBehaviour := by
  unfold lexicalCast
  split <;> exact (nomatch ·)

lemma getConfig_ne_undefined {key : ConfigKey} : getConfig ctx key s ≠ .error .undefinedBehaviour := by
  unfold getConfig
  split <;> exact (nomatch ·)

lemma bind_ne_undefined {α β : Type} {x : Except RotateError α} {f : α → Except RotateError β}
    (hx : x ≠ .error .undefinedBehaviour) (hf : ∀ a, x = .ok a → f a ≠ .error .undefinedBehaviour) :
    x >>= f ≠ .error .undefinedBehaviour := by
  cases x with
  | error => exact fun h => hx (by cases h; rfl)
  | ok a => exact hf a rfl

lemma shouldRotate_ne_undefined
    (hblock : ∀ n, getSysteConfigByKey .epochBlockNum ctx.number s.configRows ≠ some (.number 0, n)) :
    m.shouldRotate ctx s ≠ .error .undefinedBehaviour := by
  apply bind_ne_undefined
  · unfold notifyRotateFlag
    apply bind_ne_undefined getConfig_ne_undefined
    intro info _
    split
    · apply bind_ne_undefined lexicalCast_ne_undefined
      exact fun _ _ => (nomatch ·)
    · exact (nomatch ·)
  · intro setted _
    split
    · exact (nomatch ·)
    apply bind_ne_undefined getConfig_ne_undefined
    intro info _
    apply bind_ne_undefined lexicalCast_ne_undefined
    intro epochSize _
    unfold epochEnds
    dsimp only
    split_ifs
    · exact (nomatch ·)
    · exact (nomatch ·)
    · apply bind_ne_undefined getConfig_ne_undefined
      intro blockInfo hblockInfo
      apply bind_ne_undefined lexicalCast_ne_undefined
      intro epochBlockNum hcast
      split
      case isTrue hzero =>
        subst hzero
        have hblockInfo := getConfig_ok hblockInfo
        rw [← Prod.eta blockInfo, lexicalCast_ok hcast] at hblockInfo
        exact absurd hblockInfo (hblock _)
      case isFalse => exact (nomatch ·)

end

section

variable {start s : TableFactory} {tx : RotateTx}

def executeRotation (ctx : ExecutiveContext) (s : Option TableFactory) (tx : RotateTx) : Option TableFactory :=
  s.bind fun s => callRC2 ctx s tx

def Configured (ctx : ExecutiveContext) (epochSealerNum : Int) (s : TableFactory) : Prop :=
  0 < epochSealerNum ∧ ∀ n, getSysteConfigByKey .epochBlockNum ctx.number s.configRows ≠ some (.number 0, n)

lemma OneRotation.callRC2 {s' : TableFactory}
    (h : OneRotation ctx epochSealerNum enableNumber start s) (hsafe : RotateSafe ctx epochSealerNum s tx)
    (hcall : callRC2 ctx s tx = some s') : OneRotation ctx epochSealerNum enableNumber start s' := by
  rcases callRC2_cases hcall with ⟨selected, hreturn⟩ | hrows
  · have hrun := hreturn
    unfold WorkingSealerManagerPrecompiled.rotateWorkingSealer WorkingSealerManagerImpl.rotateWorkingSealer at hrun
    cases hshould : (manager tx).shouldRotate ctx s with
    | error =>
      rw [hshould] at hrun
      cases hrun
    | ok result =>
      obtain ⟨m₁, rotate⟩ := result
      rw [hshould] at hrun
      cases rotate with
      | true => exact h.rotated hsafe hshould hreturn
      | false =>
        cases hrun
        exact h
  · apply h.of_rows (hrows .consensus)
    intro key _
    unfold TableFactory.configRows
    rw [hrows]

lemma OneRotation.callRC2_isSome (h : OneRotation ctx epochSealerNum enableNumber start s)
    (hsafe : RotateSafe ctx epochSealerNum s tx) (hconfig : Configured ctx epochSealerNum start) :
    (FiscoBcos.callRC2 ctx s tx).isSome := by
  have hblock : ∀ n, getSysteConfigByKey .epochBlockNum ctx.number s.configRows ≠ some (.number 0, n) := by
    rw [getSysteConfigByKey_congr (h.config .epochBlockNum (by decide))]
    exact hconfig.2
  have hshould := @shouldRotate_ne_undefined ctx s (manager tx) hblock
  apply FiscoBcos.callRC2_isSome
  unfold WorkingSealerManagerPrecompiled.rotateWorkingSealer WorkingSealerManagerImpl.rotateWorkingSealer
  split
  case h_1 e herror =>
    rw [herror] at hshould
    exact fun hundefined => hshould (by cases hundefined; rfl)
  case h_2 => exact (nomatch ·)
  case h_3 m₁ hrotate =>
    split
    case h_1 e hfail =>
      have hdefined := checkVRFInfos_ne_undefined hfail
      exact fun hundefined => hdefined (by cases hundefined; rfl)
    case h_2 m₂ hcheck =>
      obtain ⟨setted, hflag, rfl⟩ := checkVRFInfos_of_shouldRotate h.epoch rfl hrotate hcheck
      apply rotateSealers_ne_undefined (Option.some_ne_none _)
      change ((workingSealers ctx s).length : Int) + (pendingSealers ctx s).length ≤ 1 ∨
        0 < epochSizeUsed setted tx.memory epochSealerNum
      rw [length_add_length h.rows]
      have hpos := hconfig.1
      cases setted with
      | true =>
        have hmemory := hsafe.memory hflag
        change _ ∨ 0 < tx.memory
        omega
      | false => exact .inr hpos

/-- In a block all of whose calls are safe the working sealers stay as many as configured, and at most one node becomes
and at most one stops being a working sealer. -/
theorem one_rotation_per_block {txs : List RotateTx} (hrows : OneRowEach start.nodeRows)
    (hepoch : getSysteConfigByKey .epochSealerNum ctx.number start.configRows =
      some (.number epochSealerNum, enableNumber))
    (hworking : ((allOfType start .workingSealer).card : Int) =
      min epochSealerNum (allOfType start .workingSealer ∪ allOfType start .sealer).card)
    (hsafe : Along (executeRotation ctx)
      (fun s tx => ∀ t, s = some t → RotateSafe ctx epochSealerNum t tx) (some start) txs) :
    (Configured ctx epochSealerNum start → (run (executeRotation ctx) (some start) txs).isSome) ∧
    ∀ s, run (executeRotation ctx) (some start) txs = some s → ((allOfType s .workingSealer).card : Int) =
        min epochSealerNum (allOfType s .workingSealer ∪ allOfType s .sealer).card ∧
      (allOfType s .workingSealer \ allOfType start .workingSealer).card ≤ 1 ∧
      (allOfType start .workingSealer \ allOfType s .workingSealer).card ≤ 1 := by
  have hstart : OneRotation ctx epochSealerNum enableNumber start start := by
    refine ⟨hrows, fun _ _ => rfl, hepoch, hworking, ?_, ?_, fun _ => rfl⟩
    · simp
    · simp
  have hstep : ∀ (o : Option TableFactory) (tx : RotateTx), (∀ t, o = some t → RotateSafe ctx epochSealerNum t tx) →
      ((Configured ctx epochSealerNum start → o.isSome) ∧
        ∀ s, o = some s → OneRotation ctx epochSealerNum enableNumber start s) →
      (Configured ctx epochSealerNum start → (executeRotation ctx o tx).isSome) ∧
        ∀ s, executeRotation ctx o tx = some s → OneRotation ctx epochSealerNum enableNumber start s := by
    rintro o tx hcond ⟨hsome, hone⟩
    cases o with
    | none => exact ⟨hsome, fun _ h => (nomatch h)⟩
    | some s =>
      refine ⟨fun hconfig => (hone s rfl).callRC2_isSome (hcond s rfl) hconfig, fun s' hs' => ?_⟩
      exact (hone s rfl).callRC2 (hcond s rfl) hs'
  have hinv := invariant_run _ hstep ⟨fun _ => rfl, fun s hs => Option.some.inj hs ▸ hstart⟩ hsafe
  refine ⟨hinv.1, fun s hs => ?_⟩
  have h := hinv.2 s hs
  exact ⟨h.working, h.became, h.stopped⟩

/-- Two calls with one pending sealer: the second finds no pending sealer and does nothing. -/
theorem one_rotation_two_calls : ∃ s, run (executeRotation trialContext)
      (some (trialTables 2 0 [1, 2] [3])) [trialTx 1 0, trialTx 2 0] = some s ∧
    ((allOfType s .workingSealer).card : Int) = min (2 : Int) (allOfType s .workingSealer ∪ allOfType s .sealer).card ∧
    (allOfType s .workingSealer \ allOfType (trialTables 2 0 [1, 2] [3]) .workingSealer).card ≤ 1 ∧
    (allOfType (trialTables 2 0 [1, 2] [3]) .workingSealer \ allOfType s .workingSealer).card ≤ 1 := by
  have hsafe : Along (executeRotation trialContext)
      (fun s tx => ∀ t, s = some t → RotateSafe trialContext 2 t tx)
      (some (trialTables 2 0 [1, 2] [3])) [trialTx 1 0, trialTx 2 0] := by
    refine ⟨?_, ?_, trivial⟩
    · rintro t ⟨⟩
      exact ⟨(nomatch ·), .inl (by decide)⟩
    · rintro t ⟨⟩
      exact ⟨(nomatch ·), .inr rfl⟩
  obtain ⟨hsome, hkeep⟩ := one_rotation_per_block (by decide) rfl (by decide) hsafe
  obtain ⟨s, hs⟩ := Option.isSome_iff_exists.mp (hsome ⟨by decide, fun n => (nomatch ·)⟩)
  exact ⟨s, hs, hkeep s hs⟩

/-- Two calls with two pending sealers, each of a working sealer: the second finds one working sealer too few in force
and makes another node one, so that there are three instead of two. -/
theorem not_one_rotation : ∃ s, OneRowEach (trialTables 2 0 [1, 2] [3, 4]).nodeRows ∧
    allOfType (trialTables 2 0 [1, 2] [3, 4]) .workingSealer = {1, 2} ∧
    run (executeRotation trialContext) (some (trialTables 2 0 [1, 2] [3, 4]))
      [trialTx 1 0, trialTx 2 0] = some s ∧
    (allOfType s .workingSealer).card = 3 ∧
    (allOfType s .workingSealer \ allOfType (trialTables 2 0 [1, 2] [3, 4]) .workingSealer).card = 2 := by
  refine ⟨_, ?_, ?_, rfl, ?_, ?_⟩
  · decide
  · decide
  · decide
  · decide

end

end FiscoBcos
