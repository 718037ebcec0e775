import FiscoBcos.Precompiled.AccountPermissions
import FiscoBcos.Precompiled.Ballots

/-!
# Every change needs a fresh majority

In every run of calls that keeps to four conditions, whatever the committee decides has the votes of different members
that have not expired and were not counted before, with more weight than the threshold asks for.
-/

namespace FiscoBcos

open ChainGovernancePrecompiled ChainGovernancePrecompiled List AccessTable Machine KeyedRows

variable {r : Int × Governance} {t : AccessTable}

section

variable {s : Governance} {origin : H160} {c : Call} {p : Proposal}

/-- What a call of the governance contract does to the members, the table of the committee and the record of what took
effect. -/
inductive GovernanceEffect (s : Governance) (origin : H160) (c : Call) (s' : Governance) : Prop where
  | idle (hrows : s'.access.rows SYS_ACCESS_TABLE = s.access.rows SYS_ACCESS_TABLE)
      (htable : getCommitteeTable s' = getCommitteeTable s) (henacted : s'.enacted = s.enacted)
  | first (user : H160) (hc : c = .grantCommitteeMember user) (hempty : s.access.rows SYS_ACCESS_TABLE = [])
      (hs' : s' = (grantFirstMember s origin user.hexPrefixed).2)
  | recorded (p : Proposal) (hp : Proposes s c p)
      (hrows : s'.access.rows SYS_ACCESS_TABLE = s.access.rows SYS_ACCESS_TABLE)
      (htable : getCommitteeTable s' = recorded s origin p) (henacted : s'.enacted = s.enacted)
  | enacted (p : Proposal) (hp : Proposes s c p)
      (horigin : origin.hexPrefixed ∈ (s.access.rows SYS_ACCESS_TABLE).map AccessRow.address)
      (hvalid : validate p.key p.value (recorded s origin p) s.access (s.access.number + 1) = some true)
      (hrows : s'.access.rows SYS_ACCESS_TABLE = (enactAccess s origin (recorded s origin p) p).2.rows SYS_ACCESS_TABLE)
      (htable : getCommitteeTable s' = enactCommittee origin (recorded s origin p) p)
      (henacted : s'.enacted = ⟨p, s.access.number, (countedVotes p.key p.value
        (recorded s origin p) (s.access.number + 1)).map CommitteeRow.stamp⟩ :: s.enacted)

lemma effect_verifyAndRecord {committee : Option (KeyedRows Str CommitteeRow)}
    (hp : Proposes s c p) (hr : verifyAndRecord { s with committee := committee } origin p = some r)
    (hsame : getCommitteeTable { s with committee := committee } = getCommitteeTable s) : GovernanceEffect s origin c r.2 := by
  have hrecorded : recorded { s with committee := committee } origin p = recorded s origin p := by
    unfold recorded
    rw [hsame]
  unfold verifyAndRecord at hr
  rw [hrecorded] at hr
  split at hr
  · cases hr
    exact .idle rfl hsame rfl
  rename_i horigin
  obtain ⟨valid, hvalid, rfl⟩ := Option.map_eq_some_iff.mp hr
  cases valid with
  | true =>
    refine .enacted p hp (mem_members.mp horigin) hvalid ?_ rfl rfl
    cases p <;> rfl
  | false => exact .recorded p hp rfl rfl rfl

lemma effect_call (hr : call s origin c = some r) : GovernanceEffect s origin c r.2 := by
  unfold call at hr
  split at hr
  · cases hr
  cases c with
  | grantCommitteeMember user =>
    dsimp only at hr
    unfold grantCommitteeMember at hr
    split_ifs at hr with _ hempty hmember
    · cases hr
      exact .idle rfl rfl rfl
    · cases hr
      exact .first user rfl hempty rfl
    · cases hr
      exact .idle rfl rfl rfl
    · exact effect_verifyAndRecord ⟨rfl, not_not.mp hmember⟩ hr rfl
  | revokeCommitteeMember =>
    dsimp only at hr
    unfold revokeCommitteeMember at hr
    split_ifs at hr with hmember
    · cases hr
      exact .idle rfl rfl rfl
    · exact effect_verifyAndRecord ⟨rfl, hmember⟩ hr rfl
  | updateCommitteeMemberWeight =>
    unfold updateCommitteeMemberWeight at hr
    dsimp only at hr
    split_ifs at hr with hmember
    · cases hr
      exact .idle rfl rfl rfl
    · cases hr
      exact .idle rfl rfl rfl
    · exact effect_verifyAndRecord ⟨rfl, hmember⟩ hr rfl
  | updateThreshold weight =>
    unfold updateThreshold at hr
    dsimp only at hr
    split_ifs at hr
    · cases hr
      exact .idle rfl rfl rfl
    · cases hr
      exact .idle rfl rfl rfl
    · exact effect_verifyAndRecord (c := .updateThreshold weight) rfl hr rfl
  | grantOperator =>
    unfold grantOperator at hr
    dsimp only at hr
    split_ifs at hr
    · cases hr
      exact .idle rfl rfl rfl
    · cases hr
      exact .idle rfl rfl rfl
    · cases hr
      exact .idle rfl rfl rfl
    · cases hr
      refine .idle ?_ rfl rfl
      rw [rows_grantTablePermission_of_ne (by decide), rows_grantTablePermission_of_ne (by decide)]
  | revokeOperator =>
    dsimp only at hr
    unfold revokeOperator revokeTablePermission at hr
    split_ifs at hr
    · cases hr
      exact .idle rfl rfl rfl
    · cases hr
      exact .idle rfl rfl rfl
    · cases hr
      refine .idle ?_ rfl rfl
      rw [rows_remove_of_ne (by decide), rows_remove_of_ne (by decide)]
  | _ =>
    cases hr
    exact .idle rfl rfl rfl

end

namespace Governance

variable {version : Nat} {s : Governance}

def members (s : Governance) : List Str :=
  (s.access.rows SYS_ACCESS_TABLE).map AccessRow.address

/-- The votes for a proposal, with that of the sender, that members have given, that have not expired and that were not
counted towards anything that took effect. -/
def freshVotes (s : Governance) (origin : H160) (p : Proposal) : List CommitteeRow :=
  (recorded s origin p p.key).filter fun vote =>
    vote.value = p.value ∧ vote.blockLimit.any (s.access.number + 1 ≤ ·) ∧ vote.origin ∈ s.members ∧
      vote.stamp ∉ countedStamps s.enacted

def HasFreshMajority (s : Governance) (origin : H160) (p : Proposal) : Prop :=
  ((s.freshVotes origin p).map CommitteeRow.origin).Nodup ∧
    thresholdPercent (getCommitteeTable s) * totalWeight (getCommitteeTable s) s.members <
      100 * ((s.freshVotes origin p).map fun vote => weightOf (getCommitteeTable s) vote.origin).sum

instance (s : Governance) (origin : H160) (p : Proposal) : Decidable (HasFreshMajority s origin p) :=
  inferInstanceAs (Decidable (_ ∧ _))

/-- The proposal that takes effect in a step, if there was a first member before, and the sender of the call. -/
def takesEffect (version : Nat) (s : Governance) : Event → Option (H160 × Proposal)
  | .governance origin c =>
    match (step version s (.governance origin c)).enacted with
    | en :: earlier => if earlier = s.enacted ∧ s.enacted ≠ [] then some (origin, en.proposal) else none
    | [] => none
  | _ => none

def Sound (version : Nat) (s : Governance) (e : Event) : Prop :=
  (∀ q ∈ takesEffect version s e, HasFreshMajority s q.1 q.2) ∧
    ∀ m ∈ (step version s e).members, 0 ≤ weightOf (getCommitteeTable (step version s e)) m

instance (version : Nat) (s : Governance) (e : Event) : Decidable (Sound version s e) :=
  inferInstanceAs (Decidable (_ ∧ _))

def CarefulCall (s : Governance) : Call → Prop
  | .grantCommitteeMember _ => s.members = [] → s.enacted = []
  | .updateCommitteeMemberWeight _ weight => 0 ≤ weight
  | _ => True

instance (s : Governance) : ∀ c, Decidable (CarefulCall s c)
  | .grantCommitteeMember _ => inferInstanceAs (Decidable (_ → _))
  | .updateCommitteeMemberWeight _ _ => inferInstanceAs (Decidable (_ ≤ _))
  | .revokeCommitteeMember _ => isTrue trivial
  | .updateThreshold _ => isTrue trivial
  | .grantOperator _ => isTrue trivial
  | .revokeOperator _ => isTrue trivial
  | .query => isTrue trivial
  | .other => isTrue trivial

/-- The threshold does not get a value again that it got by votes that may still be there. -/
def CarefulThreshold (s : Governance) : Proposal → Prop
  | .updateThreshold percent => ∀ en ∈ s.enacted, en.proposal = .updateThreshold percent →
      en.number + c_voteValidLimit ≤ s.access.number
  | _ => True

instance (s : Governance) : ∀ p, Decidable (CarefulThreshold s p)
  | .updateThreshold _ => inferInstanceAs (Decidable (∀ en ∈ _, _))
  | .grantCommitteeMember _ => isTrue trivial
  | .revokeCommitteeMember _ => isTrue trivial
  | .updateCommitteeMemberWeight _ _ => isTrue trivial

/-- The conditions for a step. The weights of all members together can be added exactly as doubles. -/
def Careful (version : Nat) (s : Governance) : Event → Prop
  | .governance origin c => s.CarefulCall c ∧ totalWeight (getCommitteeTable s) s.members ≤ 2 ^ 53 ∧
      ∀ q ∈ takesEffect version s (.governance origin c), s.CarefulThreshold q.2
  | _ => True

instance (version : Nat) (s : Governance) : ∀ e, Decidable (Careful version s e)
  | .governance _ _ => inferInstanceAs (Decidable (_ ∧ _ ∧ _))
  | .permission _ _ => isTrue trivial
  | .commitBlock => isTrue trivial

structure Sane (s : Governance) : Prop where
  committee : Committee (s.access.rows SYS_ACCESS_TABLE) (getCommitteeTable s) s.access.number
  ballots : Ballots (getCommitteeTable s) s.access.number s.calls s.enacted
  founded : s.enacted = [] → s.access.rows SYS_ACCESS_TABLE = [] ∧ s.access.authorizedAddress = some []

/-- Nobody has a right yet, and there is no committee. -/
structure IsGenesis (s : Governance) : Prop where
  rows : s.access.rows SYS_ACCESS_TABLE = []
  authorizedAddress : s.access.authorizedAddress = some []
  committee : s.committee = none
  enacted : s.enacted = []

lemma IsGenesis.sane (h : IsGenesis s) : Sane s := by
  have htable : getCommitteeTable s = insert (fun _ => []) CGP_AUTH_THRESHOLD { value := .threshold 50 } := by
    unfold getCommitteeTable
    rw [h.committee]
    rfl
  have hvotes : ∀ key, IsVoteKey key → getCommitteeTable s key = [] := by
    intro key hkey
    rw [htable, insert_of_ne hkey.ne_threshold]
  have hnone {P : Str → CommitteeRow → Prop} (key : Str) (hkey : IsVoteKey key) :
      ∀ vote ∈ getCommitteeTable s key, P key vote := by
    rw [hvotes key hkey]
    exact forall_mem_nil _
  refine ⟨?_, ⟨fun key hkey => ?_, hnone, hnone, fun key _ hkey _ => ?_, ?_, hnone⟩,
    fun _ => ⟨h.rows, h.authorizedAddress⟩⟩
  · rw [h.rows]
    refine ⟨forall_mem_nil _, forall_mem_nil _, nodup_nil, forall_mem_nil _, fun m hlength _ => ?_, ?_⟩
    · rw [htable, insert_of_ne (weight_ne_threshold hlength)]
    · rw [htable, insert_self]
      exact ⟨_, 50, rfl, rfl⟩
  · rw [hvotes key hkey]
    exact nodup_nil
  · rw [hvotes key hkey]
    exact forall_mem_nil _
  · rw [h.enacted]
    exact forall_mem_nil _

variable {name : Str} {origin : H160} {c : Call} {p : Proposal}

lemma ne_of_opposite_eq_nil (h : opposite name = []) : SYS_ACCESS_TABLE ≠ name := by
  rintro rfl
  exact absurd h (by decide)

lemma addPrefixToUserTable_ne (hv : V2_5_0 ≤ version) (h : ¬(V2_5_0 ≤ version ∧ name = SYS_ACCESS_TABLE)) :
    SYS_ACCESS_TABLE ≠ PermissionPrecompiled.addPrefixToUserTable version name := by
  cases addPrefixToUserTable_cases hv with
  | inl hsame =>
    rw [hsame]
    exact fun heq => h ⟨hv, heq.symm⟩
  | inr hnone => exact ne_of_opposite_eq_nil hnone

lemma rows_revokeWritePermission {user : Str} {isContractTable permission : Bool} (h : SYS_ACCESS_TABLE ≠ name) :
    (PermissionPrecompiled.revokeWritePermission version t origin name user isContractTable permission).2.rows
      SYS_ACCESS_TABLE = t.rows SYS_ACCESS_TABLE := by
  unfold PermissionPrecompiled.revokeWritePermission
  split_ifs
  · rfl
  · rfl
  · exact rows_remove_of_ne h

lemma rows_permission (hv : V2_5_0 ≤ version) {c : PermissionPrecompiled.Call}
    {r : Int × AccessTable} (hr : PermissionPrecompiled.call version t origin c = some r) :
    r.2.rows SYS_ACCESS_TABLE = t.rows SYS_ACCESS_TABLE := by
  have hcontract : ∀ contract : H160, SYS_ACCESS_TABLE ≠ PermissionPrecompiled.getContractTableName contract :=
    fun contract => ne_of_opposite_eq_nil (opposite_eq_nil (by decide))
  unfold PermissionPrecompiled.call at hr
  split at hr
  · cases hr
  cases hr
  cases c with
  | insert =>
    unfold PermissionPrecompiled.insert
    dsimp only
    split_ifs with haccess
    · rfl
    · rfl
    · rfl
    · rfl
    · rfl
    · rfl
    · exact rows_insert_of_ne (addPrefixToUserTable_ne hv haccess)
  | remove =>
    unfold PermissionPrecompiled.remove
    dsimp only
    split_ifs with haccess
    · rfl
    · rfl
    · exact rows_revokeWritePermission (addPrefixToUserTable_ne hv haccess)
  | grantWrite contract =>
    unfold PermissionPrecompiled.grantWrite
    dsimp only
    split_ifs
    · rfl
    · rfl
    · rfl
    · rfl
    · exact rows_insert_of_ne (hcontract contract)
  | revokeWrite contract => exact rows_revokeWritePermission (hcontract contract)
  | other => rfl

lemma grantFirstMember_eq {member : Str} (hrows : s.access.rows SYS_ACCESS_TABLE = [])
    (hauthorized : s.access.authorizedAddress = some []) :
    (grantFirstMember s origin member).2.access.rows SYS_ACCESS_TABLE =
        s.access.rows SYS_ACCESS_TABLE ++ [⟨member, s.access.number + 1⟩] ∧
      (grantFirstMember s origin member).2.enacted =
        ⟨.grantCommitteeMember member, s.access.number, []⟩ :: s.enacted := by
  have hnew : s.access.select SYS_ACCESS_TABLE member = [] := by
    rw [select_eq_nil, hrows]
    exact forall_mem_nil _
  have hallowed : s.access.allows ⟨origin.bytes, true⟩ = true := by
    unfold allows
    rw [hauthorized]
    rfl
  have hgranted : grantTablePermission s.access member SYS_ACCESS_TABLE origin =
      (1, { s.access with rows := s.access.rows.insert SYS_ACCESS_TABLE ⟨member, s.access.number + 1⟩ }) := by
    unfold grantTablePermission AccessTable.insert
    rw [if_neg (not_not.mpr hnew), if_pos hallowed]
  unfold grantFirstMember
  dsimp only
  rw [hgranted]
  constructor
  · rw [rows_grantTablePermission_of_ne (by decide), rows_grantTablePermission_of_ne (by decide)]
    dsimp only
    rw [insert_self]
  · exact if_neg (show ¬(1 : Int) = CODE_NO_AUTHORIZED by decide)

lemma Sane.of_effect {s' : Governance} (h : Sane s) (hc : s.CarefulCall c) (heffect : GovernanceEffect s origin c s')
    (hnumber : s'.access.number = s.access.number)
    (hauthorized : s'.access.authorizedAddress = s.access.authorizedAddress) : Sane { s' with calls := s.calls + 1 } := by
  have hsane {rows table enacted} (hrows : s'.access.rows SYS_ACCESS_TABLE = rows) (htable : getCommitteeTable s' = table)
      (henacted : s'.enacted = enacted) (hcommittee : Committee rows table s.access.number)
      (hballots : Ballots table s.access.number (s.calls + 1) enacted)
      (hfounded : enacted = [] → rows = [] ∧ s.access.authorizedAddress = some []) :
      Sane { s' with calls := s.calls + 1 } := by
    subst hrows htable henacted
    rw [← hnumber] at hcommittee hballots
    exact ⟨hcommittee, hballots, fun hnone => ⟨(hfounded hnone).1, hauthorized.trans (hfounded hnone).2⟩⟩
  cases heffect with
  | idle hrows htable henacted =>
    exact hsane hrows htable henacted h.committee (h.ballots.mono le_rfl (Nat.le_succ _)) h.founded
  | first user hc' hempty hs' =>
    subst hc'
    have hnone : s.enacted = [] := hc (by unfold members; rw [hempty]; rfl)
    have hlength : user.hexPrefixed.length = 42 := user.isAddressText.2.1
    have hfirst := @grantFirstMember_eq s origin user.hexPrefixed hempty (h.founded hnone).2
    have htable : getCommitteeTable s' = (getCommitteeTable s).insert (user.hexPrefixed ++ CGP_WEIGTH_SUFFIX)
        { value := .weight 1, origin := origin.hexPrefixed } := by
      rw [hs']
      rfl
    rw [← hs'] at hfirst
    refine hsane hfirst.1 htable hfirst.2 (h.committee.addMember hlength ?_) ?_ fun hnone' => (nomatch hnone')
    · rw [hempty]
      exact not_mem_nil
    · refine ((h.ballots.sublist fun key hkey => ?_).mono le_rfl (Nat.le_succ _)).consUncounted
      rw [insert_of_ne (hkey.ne_weight hlength)]
  | recorded p hp hrows htable henacted =>
    have hkey := hp.wellFormed.isVoteKey
    exact hsane hrows htable henacted (recordVote_committee h.committee hkey _ _ _) (h.ballots.record hkey _ _) h.founded
  | enacted p hp horigin hvalid hrows htable henacted =>
    have hkey := hp.wellFormed.isVoteKey
    have hcommittee := recordVote_committee h.committee hkey
    refine hsane hrows htable henacted (committee_enact (hcommittee _ _ _) hp ?_)
      (ballots_enact (h.ballots.record hkey _ _) hp.wellFormed) fun hnone => (nomatch hnone)
    rintro user weight rfl
    exact hc

lemma sane_step (hv : V2_5_0 ≤ version) (s : Governance) (e : Event) (he : Careful version s e) (h : Sane s) :
    Sane (step version s e) := by
  cases e with
  | permission origin c =>
    unfold step
    dsimp only
    cases hr : PermissionPrecompiled.call version s.access origin c with
    | none => exact h
    | some r =>
      have hchange := changes_permission hv hr
      have hrows := rows_permission hv hr
      refine ⟨?_, ?_, fun hnone => ?_⟩
      · change Committee (r.2.rows SYS_ACCESS_TABLE) (getCommitteeTable s) r.2.number
        rw [hrows, hchange.number]
        exact h.committee
      · change Ballots (getCommitteeTable s) r.2.number s.calls s.enacted
        rw [hchange.number]
        exact h.ballots
      · exact ⟨hrows.trans (h.founded hnone).1, hchange.authorizedAddress.trans (h.founded hnone).2⟩
  | governance origin c =>
    unfold step
    dsimp only
    cases hr : call s origin c with
    | none => exact ⟨h.committee, h.ballots.mono le_rfl (Nat.le_succ _), h.founded⟩
    | some =>
      have hchange := changes_governance hr
      exact h.of_effect he.1 (effect_call hr) hchange.number hchange.authorizedAddress
  | commitBlock =>
    refine ⟨h.committee.mono, h.ballots.mono (by change s.access.number ≤ s.access.number + 1; omega) le_rfl, ?_⟩
    intro hnone
    have hrows := (h.founded hnone).1
    refine ⟨hrows, ?_⟩
    change setAuthorizedAddress _ (s.access.rows SYS_ACCESS_TABLE) = some []
    rw [hrows]
    rfl

lemma takesEffect_eq_some {q : H160 × Proposal} (h : takesEffect version s (.governance origin c) = some q) :
    s.enacted ≠ [] ∧ ∃ en, (step version s (.governance origin c)).enacted = en :: s.enacted ∧ q = (origin, en.proposal) := by
  unfold takesEffect at h
  dsimp only at h
  split at h
  · rename_i en earlier heq
    split at h
    · rename_i hnew
      exact ⟨hnew.2, en, by rw [heq, hnew.1], (Option.some.inj h).symm⟩
    · cases h
  · cases h

lemma weightOf_recorded (hp : p.WellFormed) {m : Str} (hm : m.length = 42) :
    weightOf (recorded s origin p) m = weightOf (getCommitteeTable s) m := by
  unfold weightOf recorded
  rw [recordVote_of_ne (hp.isVoteKey.ne_weight hm).symm]

lemma thresholdPercent_recorded (hp : p.WellFormed) :
    thresholdPercent (recorded s origin p) = thresholdPercent (getCommitteeTable s) := by
  unfold thresholdPercent recorded
  rw [recordVote_of_ne hp.isVoteKey.ne_threshold.symm]

lemma Sane.not_counted (h : Sane s) (hp : p.WellFormed) (hthreshold : s.CarefulThreshold p)
    {vote : CommitteeRow} (hvote : vote ∈ countedVotes p.key p.value (recorded s origin p) (s.access.number + 1)) :
    vote.stamp ∉ countedStamps s.enacted := by
  intro hcounted
  obtain ⟨hmem, haccepted⟩ := mem_filter.mp hvote
  obtain ⟨hvalue, hlimit⟩ := of_decide_eq_true haccepted
  have hballots := h.ballots.record hp.isVoteKey p.value origin.hexPrefixed
  obtain ⟨hkey, en, hen, k, hk, hproposal, hexpires⟩ := hballots.counted p.key hp.isVoteKey vote hmem hcounted
  obtain ⟨percent, rfl⟩ := hp.eq_updateThreshold hkey
  -- the earlier change was to the same value, and long ago
  have hsame : percent = k := by
    rw [hk] at hvalue
    exact (CommitteeValue.threshold.inj hvalue).symm
  have hlong : en.number + c_voteValidLimit ≤ s.access.number := hthreshold en hen (by rw [hsame]; exact hproposal)
  cases hl : vote.blockLimit with
  | none => simp [hl] at hlimit
  | some l =>
    have hle : s.access.number + 1 ≤ l := by simpa [hl] using hlimit
    have hend := hexpires l hl
    omega

lemma Sane.hasFreshMajority (h : Sane s) (hp : Proposes s c p)
    (horigin : origin.hexPrefixed ∈ (s.access.rows SYS_ACCESS_TABLE).map AccessRow.address)
    (hvalid : validate p.key p.value (recorded s origin p) s.access (s.access.number + 1) = some true)
    (hmax : totalWeight (getCommitteeTable s) s.members ≤ 2 ^ 53) (hthreshold : s.CarefulThreshold p) :
    HasFreshMajority s origin p := by
  have hwell := hp.wellFormed
  have hcommittee := recordVote_committee h.committee hwell.isVoteKey p.value s.calls origin.hexPrefixed
  have hballots := h.ballots.record hwell.isVoteKey p.value origin.hexPrefixed
  have hfresh : s.freshVotes origin p =
      (countedVotes p.key p.value (recorded s origin p) (s.access.number + 1)).filter fun vote =>
        vote.origin ∈ s.members := by
    unfold freshVotes countedVotes
    rw [filter_filter]
    refine filter_congr fun vote hvote => ?_
    rw [Bool.eq_iff_iff]
    simp
    constructor
    · rintro ⟨hvalue, hlimit, hmember, -⟩
      exact ⟨hmember, hvalue, hlimit⟩
    · rintro ⟨hmember, hvalue, hlimit⟩
      have hcounts : vote ∈ countedVotes p.key p.value (recorded s origin p) (s.access.number + 1) :=
        mem_filter.mpr ⟨hvote, decide_eq_true ⟨hvalue, hlimit⟩⟩
      exact ⟨hvalue, hlimit, hmember, h.not_counted hwell hthreshold hcounts⟩
  have hmembers : ∀ m ∈ s.members, weightOf (recorded s origin p) m = weightOf (getCommitteeTable s) m :=
    fun m hm => weightOf_recorded hwell (h.committee.length m hm)
  have htotal : totalWeight (recorded s origin p) s.members = totalWeight (getCommitteeTable s) s.members := by
    unfold totalWeight
    rw [map_congr_left hmembers]
  refine ⟨List.Nodup.sublist (filter_sublist.map _) (hballots.origins _ hwell.isVoteKey), ?_⟩
  have hlt := lt_of_validate (fun hnone => by rw [hnone] at horigin; cases horigin) hcommittee.enabled hcommittee.nodup
    hcommittee.weights (htotal.trans_le hmax) hcommittee.threshold (hballots.origins _ hwell.isVoteKey) hvalid
  have hvotes : ((s.freshVotes origin p).map fun vote => weightOf (getCommitteeTable s) vote.origin) =
      (s.freshVotes origin p).map fun vote => weightOf (recorded s origin p) vote.origin := by
    refine map_congr_left fun vote hvote => ?_
    rw [hfresh] at hvote
    exact (hmembers _ (of_decide_eq_true (mem_filter.mp hvote).2)).symm
  rw [hvotes, ← htotal, ← thresholdPercent_recorded hwell, hfresh]
  exact hlt

lemma sound_step (hv : V2_5_0 ≤ version) (s : Governance) (e : Event) (he : Careful version s e) (h : Sane s) :
    Sound version s e := by
  constructor
  · intro q hq
    cases e with
    | governance origin c =>
      obtain ⟨hfounded, en, henacted, rfl⟩ := takesEffect_eq_some hq
      have hthreshold := he.2.2 _ hq
      have hne : ∀ {l : List Enactment}, l ≠ en :: l := fun heq => absurd (congrArg length heq) (by simp)
      unfold step at henacted
      dsimp only at henacted
      cases hr : call s origin c with
      | none =>
        rw [hr] at henacted
        exact absurd henacted hne
      | some r =>
        rw [hr] at henacted
        have henacted : r.2.enacted = en :: s.enacted := henacted
        cases effect_call hr with
        | idle _ _ hsame | recorded _ _ _ _ hsame => exact absurd (hsame.symm.trans henacted) hne
        | first user hc hempty =>
          subst hc
          exact absurd (he.1 (by unfold members; rw [hempty]; rfl)) hfounded
        | enacted p hp horigin hvalid _ _ hnew =>
          rw [hnew] at henacted
          have hproposal : p = en.proposal := congrArg Enactment.proposal (cons.inj henacted).1
          rw [← hproposal] at hthreshold ⊢
          exact h.hasFreshMajority hp horigin hvalid he.2.1 hthreshold
    | _ => cases hq
  · intro m hm
    exact ((sane_step hv s e he h).committee.weights m hm).nonneg

/-- From the genesis on, in every run whose calls meet the conditions, whatever takes effect after the first member does
so by the votes of different members for just that change, not expired and not counted before, with more weight than the
threshold asks for; and no weight is negative. -/
theorem enacted_by_fresh_majority (hv : V2_5_0 ≤ version) (s : Governance) (hs : IsGenesis s) (es : List Event)
    (hes : Along (step version) (Careful version) s es) : Along (step version) (Sound version) s es :=
  Along.of_invariant Sane (sane_step hv) (sound_step hv) hs.sane hes

def callOf (n : UInt8) (c : Call) : Event :=
  .governance (sampleAccount n) c

def threeMembers : List Event :=
  [callOf 1 (.grantCommitteeMember (sampleAccount 1)), callOf 1 (.grantCommitteeMember (sampleAccount 2)),
    callOf 1 (.grantCommitteeMember (sampleAccount 3)), .commitBlock, callOf 2 (.grantCommitteeMember (sampleAccount 3))]

def decisions : List Event :=
  threeMembers ++ [callOf 1 (.updateCommitteeMemberWeight (sampleAccount 3) 4), .commitBlock,
    callOf 3 (.updateCommitteeMemberWeight (sampleAccount 3) 4), callOf 3 (.updateThreshold 70), .commitBlock,
    callOf 3 (.revokeCommitteeMember (sampleAccount 1)), callOf 2 (.revokeCommitteeMember (sampleAccount 1))]

lemma isGenesis_empty : IsGenesis {} :=
  ⟨rfl, rfl, rfl, rfl⟩

theorem enacted_by_fresh_majority_of_three : Along (step V2_6_0) (Sound V2_6_0) {} decisions ∧
      (run (step V2_6_0) {} decisions).enacted.map Enactment.counted = [[7, 8], [6], [4, 5], [2, 3], [1], []] :=
  ⟨@enacted_by_fresh_majority V2_6_0 (by decide) {} isGenesis_empty decisions (by decide +kernel), by decide +kernel⟩

/-- Two of three members make the threshold 40 and two make it 45. The vote of account 2 for 40 is still there. -/
def thresholdVotes : List Event :=
  threeMembers ++ [callOf 1 (.updateThreshold 40), callOf 2 (.updateThreshold 40), callOf 1 (.updateThreshold 45),
    callOf 3 (.updateThreshold 45)]

/-- Six members, of which four have the weight 1 and two others together `2 ^ 53`. -/
def heavyMembers : List Event :=
  [callOf 1 (.grantCommitteeMember (sampleAccount 1)), callOf 1 (.updateThreshold 0)] ++
    [2, 3, 4, 5, 6].map (fun n => callOf 1 (.grantCommitteeMember (sampleAccount n))) ++
    [callOf 1 (.updateCommitteeMemberWeight (sampleAccount 1) (2 ^ 52 + 1)),
      callOf 1 (.updateCommitteeMemberWeight (sampleAccount 2) (2 ^ 52 - 1)), callOf 1 (.updateThreshold 50)]

/-- A weight becomes negative. A vote on the threshold is counted a second time. The only member revokes itself, and
another account makes itself the first member. Weights are lost when they are added as doubles. -/
theorem not_enacted_by_fresh_majority :
    ¬Sound V2_6_0 (run (step V2_6_0) {} [callOf 1 (.grantCommitteeMember (sampleAccount 1))])
        (callOf 1 (.updateCommitteeMemberWeight (sampleAccount 1) (-5))) ∧
      ¬Sound V2_6_0 (run (step V2_6_0) {} thresholdVotes) (callOf 3 (.updateThreshold 40)) ∧
      ¬Sound V2_6_0 (run (step V2_6_0) {} [callOf 1 (.grantCommitteeMember (sampleAccount 1)),
        callOf 1 (.revokeCommitteeMember (sampleAccount 1))]) (callOf 4 (.grantCommitteeMember (sampleAccount 4))) ∧
      ¬Sound V2_6_0 (run (step V2_6_0) {} heavyMembers) (callOf 1 (.grantCommitteeMember (sampleAccount 7))) := by
  decide +kernel

end Governance

end FiscoBcos
