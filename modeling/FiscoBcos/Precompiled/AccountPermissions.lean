import FiscoBcos.Precompiled.AccessChanges

/-!
# Revoked permissions and separate roles

The calls compare accounts as texts, and a table compares them as addresses when it is opened. As long as no account is
written in two ways, what the calls check of texts holds of accounts.
-/

namespace FiscoBcos

open List Option PermissionPrecompiled

open AccessTable Machine

namespace Governance

variable {address table : Str} {addresses : List Str} (t : AccessTable) {s : Governance} {other : Str} (n : UInt8)
  {e : Event}

variable {version : Nat}

def sampleAccount : H160 where
  bytes := replicate 20 (Char.ofNat n.toNat)
  length := length_replicate
  byte := fun c hc => by
    rw [eq_of_mem_replicate hc, toNat_ofNat_of_lt n.toNat_lt]
    exact n.toNat_lt

def shortText : Str :=
  (sampleAccount n).hexPrefixed.drop 2

def Respells (version : Nat) (related : Str → List Str) (s : Governance) (e : Event) : Prop :=
  ∃ g ∈ grants version e, ∃ other ∈ related g.1, ∃ row ∈ s.access.rows other,
    row.address ≠ g.2 ∧ toAddress row.address = toAddress g.2

instance (version : Nat) (related : Str → List Str) (s : Governance) (e : Event) :
    Decidable (Respells version related s e) :=
  inferInstanceAs (Decidable (∃ g ∈ _, ∃ other ∈ _, ∃ row ∈ _, _))

def OneSpelling : Prop :=
  ∀ table, ∀ row ∈ t.rows table, ∀ row' ∈ t.rows table,
    toAddress row.address = toAddress row'.address → row.address = row'.address

def Gone (table address : Str) (t : AccessTable) : Prop :=
  ∀ row ∈ t.rows table, toAddress row.address ≠ some address

lemma oneSpelling_step (hv : V2_5_0 ≤ version) (s : Governance) (e : Event)
    (he : ¬Respells version (fun table => [table]) s e) (h : OneSpelling s.access) :
    OneSpelling (step version s e).access := by
  intro table
  have hchange := rowsChange_step hv s e table
  generalize (step version s e).access.rows table = rows at hchange ⊢
  cases hchange with
  | kept => exact h table
  | removed =>
    intro row hrow row' hrow'
    exact h table row (mem_filter.mp hrow).1 row' (mem_filter.mp hrow').1
  | added address hgrant =>
    -- an old row of the same account has the text of the new one
    have hold : ∀ row ∈ s.access.rows table, toAddress row.address = toAddress address → row.address = address := by
      intro row hrow heq
      by_contra hne
      exact he ⟨(table, address), hgrant, table, mem_singleton_self _, row, hrow, hne, heq⟩
    intro row hrow row' hrow' heq
    rw [mem_append, mem_singleton] at hrow hrow'
    cases hrow with
    | inl hrow =>
      cases hrow' with
      | inl hrow' => exact h table row hrow row' hrow' heq
      | inr hnew' =>
        rw [hnew'] at heq ⊢
        exact hold row hrow heq
    | inr hnew =>
      rw [hnew] at heq ⊢
      cases hrow' with
      | inl hrow' => exact (hold row' hrow' heq.symm).symm
      | inr hnew' => rw [hnew']

lemma gone_step (hv : V2_5_0 ≤ version) (he : ∀ g ∈ grants version e, g.1 = table → toAddress g.2 ≠ some address)
    (h : Gone table address s.access) : Gone table address (step version s e).access := by
  unfold Gone
  have hchange := rowsChange_step hv s e table
  generalize (step version s e).access.rows table = rows at hchange ⊢
  cases hchange with
  | kept => exact h
  | removed => exact fun row hrow => h row (mem_filter.mp hrow).1
  | added text hgrant =>
    intro row hrow
    rw [mem_append, mem_singleton] at hrow
    cases hrow with
    | inl hold => exact h row hold
    | inr hnew =>
      rw [hnew]
      exact he _ hgrant rfl

lemma mem_setAuthorizedAddress {blockNum : Int} {rows : List AccessRow}
    (h : setAuthorizedAddress blockNum rows = some addresses) (hmem : address ∈ addresses) :
    ∃ row ∈ rows, toAddress row.address = some address := by
  induction rows generalizing addresses with
  | nil =>
    cases h
    cases hmem
  | cons row rows ih =>
    rw [setAuthorizedAddress] at h
    split_ifs at h
    · obtain ⟨first, hfirst, h⟩ := bind_eq_some_iff.mp h
      obtain ⟨rest, hrest, rfl⟩ := map_eq_some_iff.mp h
      cases mem_cons.mp hmem with
      | inl heq =>
        rw [heq]
        exact ⟨row, mem_cons_self, hfirst⟩
      | inr hmem =>
        obtain ⟨row', hrow', haddress⟩ := ih hrest hmem
        exact ⟨row', mem_cons_of_mem _ hrow', haddress⟩
    · obtain ⟨row', hrow', haddress⟩ := ih h hmem
      exact ⟨row', mem_cons_of_mem _ hrow', haddress⟩

lemma Gone.checkAuthority {t : AccessTable} (h : Gone table address t) (hopened : t.openedFor table = some addresses)
    (hcheck : checkAuthority addresses address = true) : addresses = [] := by
  unfold FiscoBcos.checkAuthority at hcheck
  rw [Bool.or_eq_true, List.isEmpty_iff, List.contains_iff_mem] at hcheck
  cases hcheck with
  | inl hempty => exact hempty
  | inr hmem =>
    obtain ⟨row, hrow, haddress⟩ := mem_setAuthorizedAddress hopened hmem
    exact absurd haddress (h row hrow)

lemma rows_of_remove {t t' : AccessTable} {origin : H160} {name text : Str} {count : Int}
    (h : call version t origin (.remove name text) = some (count, t')) (hcount : 0 ≤ count) :
    let table := addPrefixToUserTable version name
    let address := lowered version text
    (∃ row ∈ t.rows table, row.address = address) ∧
      t'.rows table = (t.rows table).filter fun row => !decide (row.address = address) := by
  intro table address
  unfold call at h
  split at h
  · cases h
  have h := some.inj h
  unfold PermissionPrecompiled.remove PermissionPrecompiled.revokeWritePermission AccessTable.remove at h
  dsimp only at h
  split_ifs at h with _ _ hfound
  iterate 4
    · obtain ⟨rfl, rfl⟩ := Prod.mk.inj h
      exact absurd hcount (by decide)
  · obtain ⟨rfl, rfl⟩ := Prod.mk.inj h
    constructor
    · by_contra hnone
      exact hfound (select_eq_nil.mpr fun row hrow heq => hnone ⟨row, hrow, heq⟩)
    · exact KeyedRows.remove_self
  · obtain ⟨rfl, rfl⟩ := Prod.mk.inj h
    exact absurd hcount (by decide)

/-- After calls of which none writes an account of a table in a new way, a removal that succeeds leaves no row of the
account in any spelling. A table that is opened after further steps refuses the account, or everybody may write it,
unless one of these steps grants the account the table again. -/
theorem revoked_gone (hv : V2_5_0 ≤ version) (s : Governance) (hs : OneSpelling s.access) (es : List Event)
    (hes : Along (step version) (fun s e => ¬Respells version (fun table => [table]) s e) s es)
    (origin : H160) (name text address : Str) (htext : toAddress text = some address) (count : Int) (t : AccessTable)
    (hremove : call version (run (step version) s es).access origin (.remove name text) =
      some (count, t)) (hcount : 0 ≤ count) :
    let table := addPrefixToUserTable version name
    let removed := step version (run (step version) s es) (.permission origin (.remove name text))
    (∀ row ∈ removed.access.rows table, toAddress row.address ≠ toAddress text) ∧
      ∀ fs : List Event, (∀ e ∈ fs, ∀ g ∈ grants version e, g.1 = table → toAddress g.2 ≠ toAddress text) →
        ∀ addresses, (run (step version) removed fs).access.openedFor table = some addresses →
          checkAuthority addresses address = true → addresses = [] := by
  intro table removed
  have hspelling : OneSpelling (run (step version) s es).access :=
    invariant_run (fun s => OneSpelling s.access) (oneSpelling_step hv) hs hes
  obtain ⟨⟨row₀, hrow₀, htext₀⟩, hrows⟩ := rows_of_remove hremove hcount
  have hlowered : toAddress (lowered version text) = some address := by
    unfold lowered
    rw [if_pos hv]
    exact toAddress_toLower htext
  have haccess : removed.access = t := by
    change ((call version _ origin _).map Prod.snd).getD _ = t
    rw [hremove]
    rfl
  have hgone : Gone table address removed.access := by
    intro row hrow heq
    rw [haccess, hrows] at hrow
    obtain ⟨hrow, hne⟩ := mem_filter.mp hrow
    have hsame := hspelling table row hrow row₀ hrow₀ (by rw [heq, htext₀, hlowered])
    rw [htext₀] at hsame
    simp [hsame] at hne
  rw [htext]
  refine ⟨hgone, fun fs hfs addresses hopened hcheck => ?_⟩
  have hlater : Gone table address (run (step version) removed fs).access :=
    foldlRecOn (motive := fun s => Gone table address s.access) fs (step version) hgone
      fun _ hs e he => gone_step hv (hfs e he) hs
  exact hlater.checkAuthority hopened hcheck

def grantedTwo : List Event :=
  [.permission (sampleAccount 1) (.insert "t".toList (sampleAccount 0xab).hexPrefixed),
    .permission (sampleAccount 1) (.insert "t".toList (sampleAccount 2).hexPrefixed), .commitBlock]

/-- Two accounts may write a table; one of them, in capital letters, is removed. -/
theorem revoked_gone_of_two :
    let s := run (step V2_6_0) {} grantedTwo
    let text := (shortText 0xab).map Char.toUpper
    let removed := step V2_6_0 s (.permission (sampleAccount 1) (.remove "t".toList ("0x".toList ++ text)))
    (∀ row ∈ removed.access.rows "u_t".toList, toAddress row.address ≠ toAddress ("0x".toList ++ text)) ∧
      ∀ addresses, (run (step V2_6_0) removed [.commitBlock]).access.openedFor "u_t".toList = some addresses →
        checkAuthority addresses (sampleAccount 0xab).bytes = true → addresses = [] := by
  obtain ⟨r, hr, hcount⟩ := map_eq_some_iff.mp (show (call V2_6_0
    (run (step V2_6_0) {} grantedTwo).access (sampleAccount 1) (.remove "t".toList
      ("0x".toList ++ (shortText 0xab).map Char.toUpper))).map Prod.fst = some 1 by decide +kernel)
  have h := @revoked_gone V2_6_0 (by decide) {} (fun _ row hrow => absurd hrow not_mem_nil) grantedTwo
    (by decide +kernel) (sampleAccount 1) "t".toList ("0x".toList ++ (shortText 0xab).map Char.toUpper)
    (sampleAccount 0xab).bytes (by decide +kernel) r.1 r.2 hr (by rw [hcount]; decide)
  exact ⟨h.1, h.2 [.commitBlock] (by decide +kernel)⟩

/-- A row was there at the start, or a call has granted this account this table, and the row counts from the block after
that call. -/
theorem row_granted (hv : V2_5_0 ≤ version) (s : Governance) (es : List Event) (table : Str) (row : AccessRow)
    (hrow : row ∈ (run (step version) s es).access.rows table) : row ∈ s.access.rows table ∨
      ∃ before e after, es = before ++ e :: after ∧ (table, row.address) ∈ grants version e ∧
        row.enableNum = (run (step version) s before).access.number + 1 := by
  induction es generalizing s with
  | nil => exact .inl hrow
  | cons e es ih =>
    rcases ih (step version s e) hrow with hfirst | ⟨before, e', after, rfl, hgranted⟩
    · have hchange := rowsChange_step hv s e table
      generalize (step version s e).access.rows table = rows at hchange hfirst
      cases hchange with
      | kept => exact .inl hfirst
      | removed => exact .inl (mem_filter.mp hfirst).1
      | added address hgrant =>
        rcases mem_append.mp hfirst with hold | hnew
        · exact .inl hold
        · cases mem_singleton.mp hnew
          exact .inr ⟨[], e, es, rfl, hgrant, rfl⟩
    · exact .inr ⟨e :: before, e', after, rfl, hgranted⟩

theorem row_granted_of_two : ∃ before e after, grantedTwo = before ++ e :: after ∧
      ("u_t".toList, (sampleAccount 2).hexPrefixed) ∈ grants V2_6_0 e ∧
        1 = (run (step V2_6_0) {} before).access.number + 1 :=
  (@row_granted V2_6_0 (by decide) {} grantedTwo "u_t".toList ⟨(sampleAccount 2).hexPrefixed, 1⟩
    (by decide +kernel)).resolve_left not_mem_nil

/-- An account is granted a table without and with `0x`. When it is removed it keeps a row and can write the table. -/
theorem not_revoked_gone :
    let account := sampleAccount 0xab
    let grant (text : Str) : Event := .permission (sampleAccount 1) (.insert "t".toList text)
    let s := run (step V2_6_0) {} [grant (shortText 0xab), grant account.hexPrefixed]
    let removal : Call := .remove "t".toList account.hexPrefixed
    let removed := step V2_6_0 s (.permission (sampleAccount 1) removal)
    (call V2_6_0 s.access (sampleAccount 1) removal).map Prod.fst = some 1 ∧
      (removed.access.rows "u_t".toList).map AccessRow.address = [shortText 0xab] ∧
      toAddress (shortText 0xab) = toAddress account.hexPrefixed ∧
      (step V2_6_0 removed .commitBlock).access.openedFor "u_t".toList = some [account.bytes] ∧
      checkAuthority [account.bytes] account.bytes = true := by
  decide +kernel

def Separate : Prop :=
  ∀ row ∈ t.rows SYS_ACCESS_TABLE, ∀ other ∈ [SYS_TABLES, SYS_CNS], ∀ row' ∈ t.rows other,
    toAddress row.address ≠ toAddress row'.address

instance (t : AccessTable) : Decidable (Separate t) :=
  inferInstanceAs (Decidable (∀ row ∈ _, ∀ other ∈ _, ∀ row' ∈ _, _))

lemma opposite_of_added (he : ¬Respells version opposite s e) (hgrant : (table, address) ∈ grants version e)
    (hopposite : ∀ other ∈ opposite table, ∀ row ∈ s.access.rows other, row.address ≠ address)
    (hother : other ∈ opposite table) {row : AccessRow} (hrow : row ∈ s.access.rows other) :
    toAddress row.address ≠ toAddress address :=
  fun heq => he ⟨(table, address), hgrant, other, hother, row, hrow, hopposite other hother row hrow, heq⟩

lemma grants_one_role (e : Event) {member : Str} (hmember : (SYS_ACCESS_TABLE, member) ∈ grants version e)
    (hother : other ∈ [SYS_TABLES, SYS_CNS]) : (other, address) ∉ grants version e := by
  have hne : other ∉ [SYS_ACCESS_TABLE, SYS_CONFIG, SYS_CONSENSUS] := by
    revert other
    decide
  have hsingle : ∀ g : Str × Str, (SYS_ACCESS_TABLE, member) ∈ [g] → (other, address) ∉ [g] := by
    intro g hg hg'
    rw [← mem_singleton.mp hg, mem_singleton, Prod.mk.injEq] at hg'
    exact hne (by simp [hg'.1])
  cases e with
  | permission origin c =>
    cases c with
    | insert | grantWrite => exact hsingle _ hmember
    | _ => cases hmember
  | governance origin c =>
    cases c with
    | grantCommitteeMember =>
      intro hoperator
      obtain ⟨table, htable, heq⟩ := mem_map.mp hoperator
      exact hne ((Prod.mk.inj heq).1 ▸ htable)
    | grantOperator =>
      obtain ⟨table, htable, heq⟩ := mem_map.mp hmember
      exact absurd ((Prod.mk.inj heq).1 ▸ htable) (by decide)
    | _ => cases hmember
  | commitBlock => cases hmember

lemma opposite_eq : opposite SYS_ACCESS_TABLE = [SYS_TABLES, SYS_CNS] ∧
      ∀ other ∈ [SYS_TABLES, SYS_CNS], opposite other = [SYS_ACCESS_TABLE] := by
  decide

lemma separate_step (hv : V2_5_0 ≤ version) (s : Governance) (e : Event) (he : ¬Respells version opposite s e)
    (h : Separate s.access) : Separate (step version s e).access := by
  have hcommittee := rowsChange_step hv s e SYS_ACCESS_TABLE
  -- what an old row of the committee and the rows of an operator after the step are
  have hold : ∀ row ∈ s.access.rows SYS_ACCESS_TABLE, ∀ other ∈ [SYS_TABLES, SYS_CNS],
      ∀ row' ∈ (step version s e).access.rows other, toAddress row.address ≠ toAddress row'.address := by
    intro row hrow other hother
    have hoperator := rowsChange_step hv s e other
    generalize (step version s e).access.rows other = rows at hoperator ⊢
    cases hoperator with
    | kept => exact h row hrow other hother
    | removed => exact fun row' hrow' => h row hrow other hother row' (mem_filter.mp hrow').1
    | added address hgrant _ hopposite =>
      intro row' hrow'
      rw [mem_append, mem_singleton] at hrow'
      cases hrow' with
      | inl hrow' => exact h row hrow other hother row' hrow'
      | inr hnew =>
        rw [hnew]
        refine opposite_of_added he hgrant hopposite ?_ hrow
        rw [opposite_eq.2 other hother]
        exact mem_singleton_self _
  unfold Separate
  generalize (step version s e).access.rows SYS_ACCESS_TABLE = rows at hcommittee ⊢
  cases hcommittee with
  | kept => exact hold
  | removed => exact fun row hrow => hold row (mem_filter.mp hrow).1
  | added address hgrant _ hopposite =>
    intro row hrow
    rw [mem_append, mem_singleton] at hrow
    cases hrow with
    | inl hrow => exact hold row hrow
    | inr hnew =>
      intro other hother row' hrow'
      rw [hnew]
      -- the rows of operators are old ones
      have hrow' : row' ∈ s.access.rows other := by
        have hoperator := rowsChange_step hv s e other
        generalize (step version s e).access.rows other = rows' at hoperator hrow'
        cases hoperator with
        | kept => exact hrow'
        | removed => exact (mem_filter.mp hrow').1
        | added address' hgrant' => exact absurd hgrant' (grants_one_role e hgrant hother)
      exact (opposite_of_added he hgrant hopposite (by rwa [opposite_eq.1]) hrow').symm

/-- In every state that is reached by calls of which none writes an account with the other role in a new way, no account
has both roles. -/
theorem roles_separate (hv : V2_5_0 ≤ version) (s : Governance) (hs : Separate s.access) (es : List Event)
    (hes : Along (step version) (fun s e => ¬Respells version opposite s e) s es) :
    Separate (run (step version) s es).access :=
  invariant_run (fun s => Separate s.access) (separate_step hv) hs hes

def grantedRoles : List Event :=
  [.governance (sampleAccount 1) (.grantCommitteeMember (sampleAccount 1)), .commitBlock,
    .governance (sampleAccount 1) (.grantOperator (sampleAccount 2)),
    .governance (sampleAccount 1) (.grantOperator (sampleAccount 1)),
    .permission (sampleAccount 1) (.insert SYS_CNS (sampleAccount 3).hexPrefixed)]

theorem roles_separate_of_three : Separate (run (step V2_6_0) {} grantedRoles).access ∧
      ((run (step V2_6_0) {} grantedRoles).access.rows SYS_CNS).length = 2 :=
  ⟨@roles_separate V2_6_0 (by decide) {} (by decide) grantedRoles (by decide +kernel), by decide +kernel⟩

/-- A member of the committee becomes an operator, and an operator a member of the committee, when the permission
contract is given the address without `0x`. -/
theorem not_roles_separate : ¬Separate (run (step V2_6_0) {}
        [.governance (sampleAccount 1) (.grantCommitteeMember (sampleAccount 1)),
          .permission (sampleAccount 1) (.insert SYS_TABLES (shortText 1))]).access ∧
      ¬Separate (run (step V2_6_0) {} [.permission (sampleAccount 1) (.insert SYS_CNS (shortText 1)),
          .governance (sampleAccount 1) (.grantCommitteeMember (sampleAccount 1))]).access := by
  decide +kernel

end Governance

end FiscoBcos
