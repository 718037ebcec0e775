import FiscoBcos.Precompiled.ConsensusPrecompiled
import FiscoBcos.Precompiled.NodeTypes

/-!
# The registry of sealers

`getNodeListByType` stops at the first id that it cannot read, and the contract checks nothing of an id but its length.
-/

namespace FiscoBcos

open List Option

open Machine

def bigEndian (bytes : Str) : Nat :=
  bytes.foldl (fun n c => n * 256 + c.toNat) 0

/-- The constructor of `h512`: a text that is not of 64 bytes gives the id 0. -/
def toNodeID (text : Str) : Option NodeID :=
  (fromHex text).map fun bytes => if bytes.length = 64 then bigEndian bytes else 0

def IsNodeText (text : Str) : Prop :=
  text.length = 128 ∧ ∀ c ∈ text, IsHexDigit c

instance (text : Str) : Decidable (IsNodeText text) :=
  inferInstanceAs (Decidable (_ ∧ _))

section

variable {text text' : Str}

lemma bigEndian_append (bytes : Str) (c : Char) : bigEndian (bytes ++ [c]) = bigEndian bytes * 256 + c.toNat :=
  foldl_append

lemma bigEndian_inj {bytes bytes' : Str} (hlength : bytes.length = bytes'.length) (hbytes : ∀ c ∈ bytes, c.toNat < 256)
    (hbytes' : ∀ c ∈ bytes', c.toNat < 256) (h : bigEndian bytes = bigEndian bytes') : bytes = bytes' := by
  induction bytes using reverseRecOn generalizing bytes' with
  | nil => exact (eq_nil_of_length_eq_zero hlength.symm).symm
  | append_singleton bytes c ih =>
    cases bytes' using reverseRecOn with
    | nil => simp at hlength
    | append_singleton bytes' c' =>
      rw [bigEndian_append, bigEndian_append] at h
      have hc := hbytes c (by simp)
      have hc' := hbytes' c' (by simp)
      have hlast : c = c' := Char.ext (UInt32.toNat_inj.mp (show c.toNat = c'.toNat by omega))
      have hrest : bytes = bytes' := by
        apply ih
        · simpa using hlength
        · exact fun d hd => hbytes d (mem_append_left _ hd)
        · exact fun d hd => hbytes' d (mem_append_left _ hd)
        · omega
      rw [hrest, hlast]

lemma IsNodeText.toNodeID (h : IsNodeText text) :
    ∃ bytes, hexPairs text = some bytes ∧ bytes.length = 64 ∧ toNodeID text = some (bigEndian bytes) := by
  obtain ⟨hlength, hdigits⟩ := h
  obtain ⟨bytes, hbytes, hhalf⟩ := exists_hexPairs hdigits (by rw [hlength])
  have hsize : bytes.length = 64 := by omega
  refine ⟨bytes, hbytes, hsize, ?_⟩
  unfold FiscoBcos.toNodeID
  rw [(fromHex_digits hdigits (by rw [hlength])).1, hbytes, map_some, if_pos hsize]

lemma IsNodeText.eq_of_toNodeID_eq (h : IsNodeText text) (h' : IsNodeText text')
    (heq : FiscoBcos.toNodeID text = FiscoBcos.toNodeID text') : text = text' := by
  obtain ⟨bytes, hpairs, hlength, hid⟩ := h.toNodeID
  obtain ⟨bytes', hpairs', hlength', hid'⟩ := h'.toNodeID
  rw [hid, hid'] at heq
  have hbytes := bigEndian_inj (hlength.trans hlength'.symm) (toHex_hexPairs h.2 hpairs).2
    (toHex_hexPairs h'.2 hpairs').2 (some.inj heq)
  rw [← hbytes] at hpairs'
  exact eq_of_hexPairs_eq h.2 h'.2 hpairs hpairs'

end

namespace ConsensusPrecompiled

/-- `getNodeListByType` of `libprecompiled/Common.cpp`. An exception ends the loop with the list as it is then. -/
def getNodeListByType (blockNumber : Int) (type : NodeType) : List ConsensusRow → List NodeID
  | [] => []
  | row :: rows =>
    if row.type = type then
      match row.enableNum.toInt with
      | none => []
      | some enableNum =>
        if enableNum ≤ blockNumber then
          match toNodeID row.nodeID with
          | none => []
          | some nodeID => nodeID :: getNodeListByType blockNumber type rows
        else getNodeListByType blockNumber type rows
    else getNodeListByType blockNumber type rows

def readRow (row : ConsensusRow) : NodeRow where
  nodeId := (toNodeID row.nodeID).getD 0
  type := row.type
  enableNum := row.enableNum

def typeOf (rows : List ConsensusRow) (nodeID : Str) : Option NodeType :=
  (rows.find? fun row => row.nodeID = nodeID).map ConsensusRow.type

def Method.type : Method → Option NodeType
  | .addSealer => some .sealer
  | .addObserver => some .observer
  | .remove => none
  | .undefined => none

def Settles (nodeID : Str) (outcome : Call × Int) : Prop :=
  outcome.1.method ≠ .undefined ∧ toLower outcome.1.nodeID = nodeID ∧ 0 ≤ outcome.2

instance (nodeID : Str) (outcome : Call × Int) : Decidable (Settles nodeID outcome) :=
  inferInstanceAs (Decidable (_ ∧ _ ∧ _))

variable (genesis : List ConsensusRow)

/-- The type that the last successful call about a node gave it, or else its type in the genesis block. -/
def lastType (outcomes : List (Call × Int)) (nodeID : Str) : Option NodeType :=
  match outcomes.find? fun outcome => Settles nodeID outcome with
  | some outcome => outcome.1.method.type
  | none => typeOf genesis nodeID

variable {number : Int} {c : Call} {rows genesis : List ConsensusRow} {nodeID : Str} {type : NodeType}

lemma lastType_cons (outcome : Call × Int) (outcomes : List (Call × Int)) (nodeID : Str) :
    lastType genesis (outcome :: outcomes) nodeID =
      if Settles nodeID outcome then outcome.1.method.type else lastType genesis outcomes nodeID := by
  unfold lastType
  by_cases h : Settles nodeID outcome
  · rw [find?_cons_of_pos (by simpa using h), if_pos h]
  · rw [find?_cons_of_neg (by simpa using h), if_neg h]

lemma typeOf_eq_none (h : ∀ row ∈ rows, row.nodeID ≠ nodeID) : typeOf rows nodeID = none := by
  unfold typeOf
  rw [find?_eq_none.mpr fun row hrow => by simpa using h row hrow]
  rfl

lemma typeOf_append_singleton (row : ConsensusRow) (h : ∀ row' ∈ rows, row'.nodeID ≠ row.nodeID) :
    typeOf (rows ++ [row]) nodeID = if row.nodeID = nodeID then some row.type else typeOf rows nodeID := by
  unfold typeOf
  rw [find?_append]
  by_cases heq : row.nodeID = nodeID
  · have hnone : (rows.find? fun row' => row'.nodeID = nodeID) = none :=
      find?_eq_none.mpr fun row' hrow' => by simpa [← heq] using h row' hrow'
    rw [hnone, if_pos heq, none_or, find?_cons_of_pos (by simpa using heq)]
    rfl
  · rw [if_neg heq, find?_cons_of_neg (by simpa using heq), find?_nil, or_none]

lemma typeOf_map_update {id : Str} (enableNum : FieldText) (h : ∃ row ∈ rows, row.nodeID = id) :
    typeOf (rows.map fun row =>
        if row.nodeID = id then { row with type := type, enableNum := enableNum } else row) nodeID =
      if id = nodeID then some type else typeOf rows nodeID := by
  have hids : ∀ row : ConsensusRow,
      (if row.nodeID = id then { row with type := type, enableNum := enableNum } else row).nodeID = row.nodeID := by
    intro row
    split <;> rfl
  unfold typeOf
  rw [find?_map]
  simp only [Function.comp_def, hids]
  by_cases heq : id = nodeID
  · rw [if_pos heq]
    obtain ⟨row, hrow, hid⟩ := h
    have hsome : (rows.find? fun row => row.nodeID = nodeID).isSome = true :=
      find?_isSome.mpr ⟨row, hrow, by simpa using hid.trans heq⟩
    obtain ⟨found, hfound⟩ := isSome_iff_exists.mp hsome
    have hnode : found.nodeID = nodeID := by simpa using find?_some hfound
    rw [hfound, map_some, map_some, if_pos (hnode.trans heq.symm)]
  · rw [if_neg heq]
    cases hfound : rows.find? fun row => row.nodeID = nodeID with
    | none => rfl
    | some found =>
      have hnode : found.nodeID = nodeID := by simpa using find?_some hfound
      rw [map_some, map_some, if_neg fun h => heq (h.symm.trans hnode), map_some]

lemma typeOf_filter_ne (id : Str) :
    typeOf (rows.filter fun row => row.nodeID ≠ id) nodeID = if id = nodeID then none else typeOf rows nodeID := by
  by_cases heq : id = nodeID
  · rw [if_pos heq]
    refine typeOf_eq_none fun row hrow => ?_
    rw [← heq]
    simpa using (mem_filter.mp hrow).2
  rw [if_neg heq]
  unfold typeOf
  rw [find?_filter]
  congr 2
  funext row
  by_cases hrow : row.nodeID = nodeID
  · have hne : row.nodeID ≠ id := fun h => heq (h.symm.trans hrow)
    simp [hrow, Ne.symm heq]
  · simp [hrow]

lemma type_of_method {method : Method}
    (h : method = .addSealer ∧ type = .sealer ∨ method = .addObserver ∧ type = .observer) :
    method ≠ .undefined ∧ method.type = some type := by
  rcases h with ⟨rfl, rfl⟩ | ⟨rfl, rfl⟩
  · exact ⟨by decide, rfl⟩
  · exact ⟨by decide, rfl⟩

lemma typeOf_of_changes {r : Int × List ConsensusRow} (hr : Changes number c rows r) :
    typeOf r.2 nodeID = if Settles nodeID (c, r.1) then c.method.type else typeOf rows nodeID := by
  cases hr with
  | refused h => rw [if_neg fun hs => absurd hs.2.2 (not_le.mpr h)]
  | undefined h => rw [if_neg fun hs => hs.1 h]
  | inserted hmethod _ _ hnew =>
    obtain ⟨hdefined, htype⟩ := type_of_method hmethod
    rw [typeOf_append_singleton _ hnew, htype]
    by_cases heq : toLower c.nodeID = nodeID
    · rw [if_pos heq, if_pos ⟨hdefined, heq, Int.one_nonneg⟩]
    · rw [if_neg heq, if_neg fun hs => heq hs.2.1]
  | updated hmethod _ _ hold hcount =>
    obtain ⟨hdefined, htype⟩ := type_of_method (hmethod.imp_right fun h => ⟨h.1, h.2.1⟩)
    rw [typeOf_map_update _ hold, htype]
    by_cases heq : toLower c.nodeID = nodeID
    · rw [if_pos heq, if_pos ⟨hdefined, heq, hcount⟩]
    · rw [if_neg heq, if_neg fun hs => heq hs.2.1]
  | removed hmethod _ _ hcount =>
    rw [typeOf_filter_ne, hmethod]
    by_cases heq : toLower c.nodeID = nodeID
    · rw [if_pos heq, if_pos ⟨by simp [hmethod], heq, hcount⟩]
      rfl
    · rw [if_neg heq, if_neg fun hs => heq hs.2.1]

section

variable {blockNumber : Int}

lemma getNodeListByType_readRow (h : ∀ row ∈ rows, IsNodeText row.nodeID) : getNodeListByType blockNumber type rows =
      FiscoBcos.getNodeListByType blockNumber type (rows.map readRow) := by
  induction rows with
  | nil => rfl
  | cons row rows ih =>
    obtain ⟨_, -, -, hid⟩ := (h row mem_cons_self).toNodeID
    have hrest := ih fun row' hrow' => h row' (mem_cons_of_mem _ hrow')
    rw [map_cons, getNodeListByType, FiscoBcos.getNodeListByType, hrest]
    cases henable : row.enableNum.toInt with
    | none => simp [readRow, henable]
    | some => simp [readRow, henable, hid]

lemma OneRow.readRow (h : OneRow rows) (htexts : ∀ row ∈ rows, IsNodeText row.nodeID) :
    OneRowEach (rows.map readRow) := by
  unfold OneRowEach
  rw [List.map_map]
  refine List.Nodup.map_on ?_ (List.Nodup.of_map _ h)
  intro row hrow row' hrow' heq
  obtain ⟨_, -, -, hid⟩ := (htexts row hrow).toNodeID
  obtain ⟨_, -, -, hid'⟩ := (htexts row' hrow').toNodeID
  simp only [Function.comp_apply, ConsensusPrecompiled.readRow, hid, hid', Option.getD_some] at heq
  exact h.eq_of_nodeID_eq hrow hrow' ((htexts row hrow).eq_of_toNodeID_eq (htexts row' hrow') (by rw [hid, hid', heq]))

lemma mem_getNodeListByType {id : NodeID} (htexts : ∀ row ∈ rows, IsNodeText row.nodeID)
    (henabled : ∀ row ∈ rows, ∃ n, row.enableNum.toInt = some n ∧ n ≤ blockNumber) :
    id ∈ getNodeListByType blockNumber type rows ↔ ∃ row ∈ rows, row.type = type ∧ toNodeID row.nodeID = some id := by
  induction rows with
  | nil => simp [getNodeListByType]
  | cons row rows ih =>
    obtain ⟨bytes, -, -, hid⟩ := (htexts row mem_cons_self).toNodeID
    obtain ⟨n, hn, hle⟩ := henabled row mem_cons_self
    have hrest := ih (fun row' hrow' => htexts row' (mem_cons_of_mem _ hrow'))
      fun row' hrow' => henabled row' (mem_cons_of_mem _ hrow')
    have hfirst : (∃ row' ∈ row :: rows, row'.type = type ∧ toNodeID row'.nodeID = some id) ↔
        row.type = type ∧ bigEndian bytes = id ∨ id ∈ getNodeListByType blockNumber type rows := by
      rw [hrest]
      simp only [mem_cons, exists_eq_or_imp, hid, some.injEq]
    rw [hfirst, getNodeListByType]
    by_cases htype : row.type = type
    · rw [if_pos htype, hn]
      dsimp only
      rw [if_pos hle, hid]
      simp only [mem_cons, htype, true_and, eq_comm]
    · rw [if_neg htype]
      simp only [htype, false_and, false_or]

lemma OneRow.typeOf_eq_some (h : OneRow rows) :
    typeOf rows nodeID = some type ↔ ∃ row ∈ rows, row.type = type ∧ row.nodeID = nodeID := by
  unfold typeOf
  rw [map_eq_some_iff]
  constructor
  · rintro ⟨row, hfound, htype⟩
    exact ⟨row, mem_of_find?_eq_some hfound, htype, by simpa using find?_some hfound⟩
  · rintro ⟨row, hrow, htype, rfl⟩
    exact ⟨row, KeyedRows.find?_of_nodup h hrow, htype⟩

end

end ConsensusPrecompiled

namespace SealerRegistry

open ConsensusPrecompiled

structure IsGenesis (genesis : List ConsensusRow) : Prop where
  oneRow : OneRow genesis
  texts : ∀ row ∈ genesis, IsNodeText row.nodeID
  enabled : ∀ row ∈ genesis, row.enableNum = .number 0

def HexId : Event → Prop
  | .call c => c.method = .addSealer ∨ c.method = .addObserver → (toLower c.nodeID).length = 128 →
      ∀ d ∈ toLower c.nodeID, IsHexDigit d
  | .commitBlock => True

instance : ∀ e, Decidable (HexId e)
  | .call _ => inferInstanceAs (Decidable (_ → _ → _))
  | .commitBlock => inferInstanceAs (Decidable True)

structure Faithful (genesis : List ConsensusRow) (s : SealerRegistry) : Prop where
  nonneg : 0 ≤ s.number
  oneRow : OneRow s.rows
  texts : ∀ row ∈ s.rows, IsNodeText row.nodeID
  enabled : ∀ row ∈ s.rows, ∃ n, row.enableNum = .number n ∧ 0 ≤ n ∧ n ≤ s.number + 1
  types : ∀ nodeID, ConsensusPrecompiled.typeOf s.rows nodeID = lastType genesis s.outcomes nodeID

variable {genesis : List ConsensusRow} {s : SealerRegistry}

lemma IsGenesis.faithful (h : IsGenesis genesis) : Faithful genesis { rows := genesis } where
  nonneg := le_rfl
  oneRow := h.oneRow
  texts := h.texts
  enabled row hrow := ⟨0, h.enabled row hrow, le_rfl, Int.one_nonneg⟩
  types _ := rfl

lemma Faithful.call {c : Call} (h : Faithful genesis s) (hc : HexId (.call c)) :
    Faithful genesis (step s (.call c)) := by
  have hr := changes_call s.number c s.rows
  refine ⟨h.nonneg, h.oneRow.of_changes hr, fun row hrow => ?_, fun row hrow => ?_, fun nodeID => ?_⟩
  · rcases row_of_changes hr hrow with hold | ⟨-, ⟨old, hold, hid⟩ | ⟨hmethod, hid, hlength⟩⟩
    · exact h.texts row hold
    · exact hid ▸ h.texts old hold
    · exact hid ▸ ⟨hlength, hc hmethod hlength⟩
  · rcases row_of_changes hr hrow with hold | ⟨hnow, -⟩
    · exact h.enabled row hold
    · exact ⟨_, hnow, Int.add_nonneg h.nonneg Int.one_nonneg, le_rfl⟩
  · change _ = lastType genesis (_ :: s.outcomes) nodeID
    rw [lastType_cons, ← h.types]
    exact typeOf_of_changes hr

lemma faithful_step (s : SealerRegistry) (e : Event) (he : HexId e) (h : Faithful genesis s) :
    Faithful genesis (step s e) := by
  cases e with
  | call => exact h.call he
  | commitBlock =>
    refine ⟨Int.add_nonneg h.nonneg Int.one_nonneg, h.oneRow, h.texts, fun row hrow => ?_, h.types⟩
    obtain ⟨n, hn, hpos, hle⟩ := h.enabled row hrow
    exact ⟨n, hn, hpos, Int.le_add_one hle⟩

lemma along_hexId {es : List Event} (h : ∀ e ∈ es, HexId e) (s : SealerRegistry) :
    Along step (fun _ e => HexId e) s es := by
  induction es generalizing s with
  | nil => trivial
  | cons e es ih => exact ⟨h e mem_cons_self, ih (fun e' he' => h e' (mem_cons_of_mem _ he')) _⟩

/-- From genesis rows with different ids on, when all added ids are hexadecimal and a block has been committed, the list
of a type holds every node once whose last successful call gave it that type, and the genesis nodes of that type that no
successful call was about. The number of the block has to fit an `int`. -/
theorem getNodeListByType_registered (hgenesis : IsGenesis genesis) (es : List Event) (hids : ∀ e ∈ es, HexId e)
    (type : NodeType) (hnumber : (run step { rows := genesis } (es ++ [.commitBlock])).number ≤ 2147483647) :
    let s := run step { rows := genesis } (es ++ [.commitBlock])
    (ConsensusPrecompiled.getNodeListByType s.number type s.rows).Nodup ∧
      ∀ id, id ∈ ConsensusPrecompiled.getNodeListByType s.number type s.rows ↔
        ∃ nodeID, lastType genesis s.outcomes nodeID = some type ∧ toNodeID nodeID = some id := by
  rw [run_append] at hnumber ⊢
  have hbefore : Faithful genesis (run step { rows := genesis } es) :=
    invariant_run (Faithful genesis) faithful_step hgenesis.faithful (along_hexId hids _)
  generalize run step { rows := genesis } es = before at hnumber hbefore ⊢
  intro s
  have h : Faithful genesis s := faithful_step before .commitBlock trivial hbefore
  have henabled : ∀ row ∈ s.rows, ∃ n, row.enableNum.toInt = some n ∧ n ≤ s.number := by
    intro row hrow
    obtain ⟨n, hn, hpos, hle⟩ := hbefore.enabled row hrow
    have hle : n ≤ s.number := hle
    refine ⟨n, ?_, hle⟩
    have hmax : s.number ≤ 2147483647 := hnumber
    rw [hn, FieldText.toInt, if_pos ⟨by omega, by omega⟩]
  constructor
  · rw [getNodeListByType_readRow h.texts]
    exact (h.oneRow.readRow h.texts).nodup_list
  · intro id
    rw [mem_getNodeListByType h.texts henabled]
    constructor
    · rintro ⟨row, hrow, htype, hid⟩
      exact ⟨row.nodeID, (h.types _).symm.trans (h.oneRow.typeOf_eq_some.mpr ⟨row, hrow, htype, rfl⟩), hid⟩
    · rintro ⟨nodeID, htype, hid⟩
      obtain ⟨row, hrow, hrowType, rfl⟩ := h.oneRow.typeOf_eq_some.mp ((h.types _).trans htype)
      exact ⟨row, hrow, hrowType, hid⟩

lemma isGenesis_of_types {types : List (Char × NodeType)} (hids : (types.map Prod.fst).Nodup)
    (hdigits : ∀ q ∈ types, IsHexDigit q.1) : IsGenesis (tableOf types).rows where
  oneRow := by
    have hinj : Function.Injective nodeText := fun a b h => (List.cons.inj h).1
    have hnodup := hids.map hinj
    rw [List.map_map] at hnodup
    unfold OneRow tableOf
    rw [List.map_map]
    exact hnodup
  texts := by
    intro row hrow
    obtain ⟨q, hq, rfl⟩ := List.mem_map.mp hrow
    exact ⟨List.length_replicate, fun c hc => List.eq_of_mem_replicate hc ▸ hdigits q hq⟩
  enabled := by
    intro row hrow
    obtain ⟨q, hq, rfl⟩ := List.mem_map.mp hrow
    rfl

lemma hexId_nodeText {method : Method} {c : Char} {authorized : Bool} (h : IsHexDigit c.toLower) :
    HexId (.call ⟨method, nodeText c, authorized⟩) := by
  intro _ _ d hd
  unfold toLower nodeText at hd
  rw [map_replicate] at hd
  rwa [eq_of_mem_replicate hd]

theorem getNodeListByType_registered_of_observer :
    let genesis := (tableOf [('a', .sealer), ('b', .sealer)]).rows
    let s := run step { rows := genesis }
      ([.call ⟨.addSealer, nodeText 'C', true⟩, .call ⟨.addObserver, nodeText 'a', true⟩] ++ [.commitBlock])
    (ConsensusPrecompiled.getNodeListByType s.number .sealer s.rows).Nodup ∧
      ∀ id, id ∈ ConsensusPrecompiled.getNodeListByType s.number .sealer s.rows ↔
        ∃ nodeID, lastType genesis s.outcomes nodeID = some .sealer ∧ toNodeID nodeID = some id :=
  getNodeListByType_registered (isGenesis_of_types (by decide) (by decide)) _
    (forall_mem_cons.mpr ⟨hexId_nodeText (by decide), forall_mem_singleton.mpr (hexId_nodeText (by decide))⟩)
    .sealer (by decide +kernel)

/-- `addSealer` takes a text that is no hexadecimal number. The nodes that are added after it are not in the list. It
also takes two texts that begin with `0x`, and the list holds the id 0 for both. -/
theorem not_getNodeListByType_registered :
    let genesis := (tableOf [('a', .sealer)]).rows
    let s := run step { rows := genesis }
      [.call ⟨.addSealer, nodeText 'z', true⟩, .call ⟨.addSealer, nodeText 'b', true⟩, .commitBlock]
    let t := run step { rows := genesis } [.call ⟨.addSealer, "0x".toList ++ List.replicate 126 'c', true⟩,
        .call ⟨.addSealer, "0x".toList ++ List.replicate 126 'd', true⟩, .commitBlock]
    s.outcomes.map Prod.snd = [1, 1] ∧ lastType genesis s.outcomes (nodeText 'b') = some .sealer ∧
      (ConsensusPrecompiled.getNodeListByType s.number .sealer s.rows).map some = [toNodeID (nodeText 'a')] ∧
      toNodeID (nodeText 'b') ≠ toNodeID (nodeText 'a') ∧
      t.outcomes.map Prod.snd = [1, 1] ∧
      (ConsensusPrecompiled.getNodeListByType t.number .sealer t.rows).map some =
        [toNodeID (nodeText 'a'), some 0, some 0] := by
  decide +kernel

end SealerRegistry

end FiscoBcos
