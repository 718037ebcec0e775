import FiscoBcos.Precompiled.ChainGovernance

/-!
# Changes of the access table

The calls of both contracts leave the rows of one table in `_sys_table_access_`, remove those of one text, or add one of a
text that was not there.
-/

namespace FiscoBcos

open List KeyedRows

variable {user : Str} {permission : Bool} {weight : Int}

namespace AccessTable

/-- The tables whose rows an account with a row for this table must not have: a member of the committee is no operator.
-/
def opposite (table : Str) : List Str :=
  if table = SYS_ACCESS_TABLE then [SYS_TABLES, SYS_CNS]
  else if table = SYS_TABLES ∨ table = SYS_CNS then [SYS_ACCESS_TABLE]
  else []

inductive RowsChange (t : AccessTable) (grants : List (Str × Str)) (table : Str) : List AccessRow → Prop where
  | kept : RowsChange t grants table (t.rows table)
  | removed (address : Str) :
      RowsChange t grants table ((t.rows table).filter fun row => !decide (row.address = address))
  | added (address : Str) (hgrant : (table, address) ∈ grants) (hnew : ∀ row ∈ t.rows table, row.address ≠ address)
      (hopposite : ∀ other ∈ opposite table, ∀ row ∈ t.rows other, row.address ≠ address) :
      RowsChange t grants table (t.rows table ++ [⟨address, t.number + 1⟩])

structure Changes (t : AccessTable) (grants : List (Str × Str)) (t' : AccessTable) : Prop where
  number : t'.number = t.number
  authorizedAddress : t'.authorizedAddress = t.authorizedAddress
  rows : ∀ table, RowsChange t grants table (t'.rows table)

variable {t t' : AccessTable} {grants : List (Str × Str)} {table other address : Str} {options : AccessOptions}

lemma select_eq_nil : t.select table address = [] ↔ ∀ row ∈ t.rows table, row.address ≠ address := by
  simp [select, filter_eq_nil_iff]

lemma rows_insert_of_ne (h : other ≠ table) : (t.insert table address options).2.rows other = t.rows other := by
  unfold insert
  split
  · exact insert_of_ne h
  · rfl

lemma rows_remove_of_ne (h : other ≠ table) : (t.remove table address options).2.rows other = t.rows other := by
  unfold remove
  split
  · exact remove_of_ne h
  · rfl

namespace Changes

lemma refl (t : AccessTable) (grants : List (Str × Str)) : Changes t grants t :=
  ⟨rfl, rfl, fun _ => .kept⟩

section

variable (h : Changes t grants t') (hsame : t'.rows table = t.rows table)

include h hsame

lemma insert (hgrant : (table, address) ∈ grants) (hnew : t'.select table address = [])
    (hopposite : ∀ other ∈ opposite table, ∀ row ∈ t.rows other, row.address ≠ address) :
    Changes t grants (t'.insert table address options).2 := by
  rw [select_eq_nil, hsame] at hnew
  refine ⟨?_, ?_, fun other => ?_⟩
  · unfold AccessTable.insert
    split <;> exact h.number
  · unfold AccessTable.insert
    split <;> exact h.authorizedAddress
  · by_cases hother : other = table
    · subst hother
      unfold insert
      split
      · dsimp only
        rw [insert_self, hsame, h.number]
        exact .added address hgrant hnew hopposite
      · exact h.rows other
    · rw [rows_insert_of_ne hother]
      exact h.rows other

lemma remove : Changes t grants (t'.remove table address options).2 := by
  refine ⟨?_, ?_, fun other => ?_⟩
  · unfold AccessTable.remove
    split <;> exact h.number
  · unfold AccessTable.remove
    split <;> exact h.authorizedAddress
  · by_cases hother : other = table
    · subst hother
      unfold remove
      split
      · dsimp only
        rw [remove_self, hsame]
        exact .removed address
      · exact h.rows other
    · rw [rows_remove_of_ne hother]
      exact h.rows other

end

end Changes

end AccessTable

open AccessTable

def PermissionPrecompiled.Call.grants (version : Nat) : PermissionPrecompiled.Call → List (Str × Str)
  | .insert tableName addr => [(addPrefixToUserTable version tableName, lowered version addr)]
  | .grantWrite contract user _ _ => [(getContractTableName contract, user.hexPrefixed)]
  | _ => []

def ChainGovernancePrecompiled.Call.grants : ChainGovernancePrecompiled.Call → List (Str × Str)
  | .grantCommitteeMember user =>
    [SYS_ACCESS_TABLE, SYS_CONFIG, SYS_CONSENSUS].map fun table => (table, user.hexPrefixed)
  | .grantOperator user => [SYS_TABLES, SYS_CNS].map fun table => (table, user.hexPrefixed)
  | _ => []

def Governance.grants (version : Nat) : Governance.Event → List (Str × Str)
  | .permission _ c => c.grants version
  | .governance _ c => c.grants
  | .commitBlock => []

section

open PermissionPrecompiled

variable {version : Nat} {t : AccessTable} {grants : List (Str × Str)} {origin : H160} {name addr : Str}

lemma opposite_eq_nil {c : Char} {rest : Str} (hc : c ≠ '_') : opposite (c :: rest) = [] := by
  have hne : ∀ table ∈ [SYS_ACCESS_TABLE, SYS_TABLES, SYS_CNS], table.head? ≠ some c := by
    intro table htable
    simp only [mem_cons, not_mem_nil, or_false] at htable
    rcases htable with rfl | rfl | rfl <;> exact fun h => hc (Option.some.inj h).symm
  unfold opposite
  rw [if_neg, if_neg]
  · rintro (h | h)
    · exact hne SYS_TABLES (by simp) (by rw [← h]; rfl)
    · exact hne SYS_CNS (by simp) (by rw [← h]; rfl)
  · intro h
    exact hne SYS_ACCESS_TABLE (by simp) (by rw [← h]; rfl)

lemma addPrefixToUserTable_cases (hv : V2_5_0 ≤ version) :
    addPrefixToUserTable version name = name ∨ opposite (addPrefixToUserTable version name) = [] := by
  unfold addPrefixToUserTable PermissionPrecompiled.getTableName
  split
  · exact .inl rfl
  have hnot : ¬version < V2_2_0 := by
    unfold V2_5_0 at hv
    unfold V2_2_0
    omega
  rw [if_neg hnot]
  exact .inr (opposite_eq_nil (by decide))

lemma changes_insertCall (hv : V2_5_0 ≤ version)
    (hgrant : (addPrefixToUserTable version name, lowered version addr) ∈ grants) :
    Changes t grants (PermissionPrecompiled.insert version t origin name addr).2 := by
  unfold PermissionPrecompiled.insert
  dsimp only
  split_ifs with haccess hoperator _ hnew _ _
  · exact .refl t grants
  · exact .refl t grants
  · exact .refl t grants
  · exact .refl t grants
  · exact .refl t grants
  · exact .refl t grants
  · refine (Changes.refl t grants).insert rfl hgrant (not_not.mp hnew) ?_
    cases addPrefixToUserTable_cases hv with
    | inr hnone =>
      rw [hnone]
      exact forall_mem_nil _
    | inl hsame =>
      rw [hsame]
      unfold opposite
      rw [if_neg fun h => haccess ⟨hv, h⟩]
      split
      · rename_i hrole
        intro other hother
        rw [mem_singleton.mp hother]
        by_contra hrow
        rw [← select_eq_nil] at hrow
        exact hoperator ⟨hv, hrow, hrole⟩
      · exact forall_mem_nil _

lemma changes_revokeWritePermission {table : Str} {isContractTable : Bool} :
    Changes t grants (revokeWritePermission version t origin table user isContractTable permission).2 := by
  unfold revokeWritePermission
  split_ifs
  · exact .refl t grants
  · exact .refl t grants
  · exact (Changes.refl t grants).remove rfl

lemma changes_removeCall : Changes t grants (remove version t origin name addr).2 := by
  unfold PermissionPrecompiled.remove
  dsimp only
  split_ifs
  · exact .refl t grants
  · exact .refl t grants
  · exact changes_revokeWritePermission

lemma changes_grantWrite {contract user : H160} {exist : Bool}
    (hgrant : (getContractTableName contract, user.hexPrefixed) ∈ grants) :
    Changes t grants (grantWrite version t origin contract user exist permission).2 := by
  unfold grantWrite
  dsimp only
  split_ifs with hnew
  · exact .refl t grants
  · exact .refl t grants
  · exact .refl t grants
  · exact .refl t grants
  · refine (Changes.refl t grants).insert rfl hgrant (not_not.mp hnew) ?_
    exact forall_mem_nil _

lemma changes_permission (hv : V2_5_0 ≤ version) {c : Call} {r : Int × AccessTable}
    (hr : call version t origin c = some r) : Changes t (c.grants version) r.2 := by
  unfold call at hr
  split at hr
  · cases hr
  cases hr
  cases c with
  | insert => exact changes_insertCall hv (mem_singleton_self _)
  | remove => exact changes_removeCall
  | grantWrite => exact changes_grantWrite (mem_singleton_self _)
  | revokeWrite => exact changes_revokeWritePermission
  | other => exact .refl _ _

end

section

open ChainGovernancePrecompiled

variable {s : Governance} {t t' : AccessTable} {grants : List (Str × Str)} {origin : H160} {table other account : Str}

lemma rows_grantTablePermission_of_ne (h : other ≠ table) :
    (grantTablePermission t account table origin).2.rows other = t.rows other := by
  unfold grantTablePermission
  split
  · rfl
  · exact rows_insert_of_ne h

lemma AccessTable.Changes.grantTablePermission (h : Changes t grants t') (hsame : t'.rows table = t.rows table)
    (hgrant : (table, account) ∈ grants)
    (hopposite : ∀ other ∈ opposite table, ∀ row ∈ t.rows other, row.address ≠ account) :
    Changes t grants (grantTablePermission t' account table origin).2 := by
  unfold ChainGovernancePrecompiled.grantTablePermission
  split
  · exact h
  · rename_i hnew
    exact h.insert hsame hgrant (not_not.mp hnew) hopposite

lemma AccessTable.Changes.grantMember (h : Changes t grants t') (hconfig : t'.rows SYS_CONFIG = t.rows SYS_CONFIG)
    (hconsensus : t'.rows SYS_CONSENSUS = t.rows SYS_CONSENSUS) (hgrant : (SYS_CONFIG, account) ∈ grants)
    (hgrant' : (SYS_CONSENSUS, account) ∈ grants) : Changes t grants (ChainGovernancePrecompiled.grantTablePermission
      (ChainGovernancePrecompiled.grantTablePermission t' account SYS_CONFIG origin).2 account SYS_CONSENSUS origin).2 := by
  have hnone : opposite SYS_CONFIG = [] ∧ opposite SYS_CONSENSUS = [] := by decide
  refine (h.grantTablePermission hconfig hgrant ?_).grantTablePermission ?_ hgrant' ?_
  · rw [hnone.1]
    exact forall_mem_nil _
  · rw [rows_grantTablePermission_of_ne (by decide)]
    exact hconsensus
  · rw [hnone.2]
    exact forall_mem_nil _

lemma not_hasOperatorPermissions (h : ¬hasOperatorPermissions t account = true) :
    ∀ other ∈ opposite SYS_ACCESS_TABLE, ∀ row ∈ t.rows other, row.address ≠ account := by
  have hrole : opposite SYS_ACCESS_TABLE = [SYS_TABLES, SYS_CNS] := by decide
  simp only [hasOperatorPermissions, decide_eq_true_eq, not_or, not_not, select_eq_nil] at h
  rw [hrole]
  intro other hother
  simp only [mem_cons, not_mem_nil, or_false] at hother
  rcases hother with rfl | rfl
  · exact h.1
  · exact h.2

variable {r : Int × Governance} {member : Str}

lemma changes_verifyAndRecord {p : Proposal} (hr : verifyAndRecord s origin p = some r)
    (henact : ∀ table, Changes s.access grants (enactAccess s origin table p).2) : Changes s.access grants r.2.access := by
  unfold verifyAndRecord at hr
  split at hr
  · cases hr
    exact .refl _ _
  obtain ⟨valid, -, rfl⟩ := Option.map_eq_some_iff.mp hr
  split
  · exact henact _
  · exact .refl _ _

lemma changes_grantCommitteeMember (hr : grantCommitteeMember s origin member = some r)
    (hgrants : ∀ table ∈ [SYS_ACCESS_TABLE, SYS_CONFIG, SYS_CONSENSUS], (table, member) ∈ grants) :
    Changes s.access grants r.2.access := by
  unfold grantCommitteeMember at hr
  split_ifs at hr with hoperator hfirst hmember
  · cases hr
    exact .refl _ _
  · cases hr
    exact ((Changes.refl s.access grants).grantTablePermission rfl (hgrants _ (by simp))
      (not_hasOperatorPermissions hoperator)).grantMember (rows_grantTablePermission_of_ne (by decide))
      (rows_grantTablePermission_of_ne (by decide)) (hgrants _ (by simp)) (hgrants _ (by simp))
  · cases hr
    exact .refl _ _
  · refine changes_verifyAndRecord hr fun _ => ?_
    exact ((Changes.refl s.access grants).insert rfl (hgrants _ (by simp)) (not_not.mp hmember)
      (not_hasOperatorPermissions hoperator)).grantMember (rows_insert_of_ne (by decide)) (rows_insert_of_ne (by decide))
      (hgrants _ (by simp)) (hgrants _ (by simp))

lemma changes_revokeCommitteeMember
    (hr : revokeCommitteeMember s origin member = some r) : Changes s.access grants r.2.access := by
  unfold revokeCommitteeMember at hr
  split at hr
  · cases hr
    exact .refl _ _
  refine changes_verifyAndRecord hr fun _ => ?_
  refine (((Changes.refl s.access grants).remove rfl).remove ?_).remove ?_
  · exact rows_remove_of_ne (by decide)
  · exact (rows_remove_of_ne (by decide)).trans (rows_remove_of_ne (by decide))

lemma changes_updateCommitteeMemberWeight
    (hr : updateCommitteeMemberWeight s origin member weight = some r) : Changes s.access grants r.2.access := by
  unfold updateCommitteeMemberWeight at hr
  dsimp only at hr
  split_ifs at hr
  · cases hr
    exact .refl _ _
  · cases hr
    exact .refl _ _
  · exact changes_verifyAndRecord (s := { s with committee := some (getCommitteeTable s) }) hr fun _ => .refl _ _

lemma changes_updateThreshold (hr : updateThreshold s origin weight = some r) : Changes s.access grants r.2.access := by
  unfold updateThreshold at hr
  dsimp only at hr
  split_ifs at hr
  · cases hr
    exact .refl _ _
  · cases hr
    exact .refl _ _
  · exact changes_verifyAndRecord (s := { s with committee := some (getCommitteeTable s) }) hr fun _ => .refl _ _

lemma changes_grantOperator (hr : grantOperator s origin user = some r)
    (hgrants : ∀ table ∈ [SYS_TABLES, SYS_CNS], (table, user) ∈ grants) : Changes s.access grants r.2.access := by
  unfold grantOperator at hr
  dsimp only at hr
  split_ifs at hr with horigin hmember
  · cases hr
    exact .refl _ _
  · cases hr
    exact .refl _ _
  · cases hr
    exact .refl _ _
  · cases hr
    have hrole : opposite SYS_TABLES = [SYS_ACCESS_TABLE] ∧ opposite SYS_CNS = [SYS_ACCESS_TABLE] := by decide
    have hcommittee : ∀ other ∈ [SYS_ACCESS_TABLE], ∀ row ∈ s.access.rows other, row.address ≠ user := by
      intro other hother
      rw [mem_singleton.mp hother]
      exact select_eq_nil.mp (not_not.mp hmember)
    refine ((Changes.refl s.access grants).grantTablePermission rfl (hgrants _ (by simp)) ?_).grantTablePermission
      (rows_grantTablePermission_of_ne (by decide)) (hgrants _ (by simp)) ?_
    · rw [hrole.1]
      exact hcommittee
    · rw [hrole.2]
      exact hcommittee

lemma changes_revokeOperator (hr : revokeOperator s origin user = some r) : Changes s.access grants r.2.access := by
  unfold revokeOperator at hr
  split_ifs at hr
  · cases hr
    exact .refl _ _
  · cases hr
    exact .refl _ _
  · cases hr
    exact ((Changes.refl s.access grants).remove rfl).remove (rows_remove_of_ne (by decide))

lemma changes_governance {c : Call} (hr : call s origin c = some r) : Changes s.access c.grants r.2.access := by
  unfold call at hr
  split at hr
  · cases hr
  cases c with
  | grantCommitteeMember => exact changes_grantCommitteeMember hr (by simp [Call.grants])
  | revokeCommitteeMember => exact changes_revokeCommitteeMember hr
  | updateCommitteeMemberWeight => exact changes_updateCommitteeMemberWeight hr
  | updateThreshold => exact changes_updateThreshold hr
  | grantOperator => exact changes_grantOperator hr (by simp [Call.grants])
  | revokeOperator => exact changes_revokeOperator hr
  | _ =>
    cases hr
    exact .refl _ _

end

namespace Governance

lemma rowsChange_step {version : Nat} (hv : V2_5_0 ≤ version) (s : Governance) (e : Event) (table : Str) :
    RowsChange s.access (grants version e) table ((step version s e).access.rows table) := by
  cases e with
  | permission origin c =>
    unfold step
    dsimp only
    cases hr : PermissionPrecompiled.call version s.access origin c with
    | none => exact .kept
    | some => exact (changes_permission hv hr).rows table
  | governance origin c =>
    unfold step
    dsimp only
    cases hr : ChainGovernancePrecompiled.call s origin c with
    | none => exact .kept
    | some => exact (changes_governance hr).rows table
  | commitBlock => exact .kept

end Governance

end FiscoBcos
