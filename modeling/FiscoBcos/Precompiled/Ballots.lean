import FiscoBcos.Precompiled.AccessChanges
import FiscoBcos.Precompiled.CommitteeTable

/-!
# Members, weights and ballots

What the calls of the governance contract keep of the members, their weights and the threshold, and of the votes. The keys
of votes, of weights and of the threshold have different lengths.
-/

namespace FiscoBcos

open List Option AccessRow ChainGovernancePrecompiled CommitteeRow AccessTable

variable {value : CommitteeValue} {rows : List AccessRow}

open ChainGovernancePrecompiled KeyedRows

section

def IsVoteKey (key : Str) : Prop :=
  key.length = 42 ∨ key.length = 56 ∨ key = CGP_UPDATE_AUTH_THRESHOLD

variable {key member other : Str}

lemma IsVoteKey.ne_weight (h : IsVoteKey key) (hmember : member.length = 42) : key ≠ member ++ CGP_WEIGTH_SUFFIX := by
  intro heq
  have hlength : key.length = 49 := by
    rw [heq, length_append, hmember]
    rfl
  rcases h with h | h | rfl
  · omega
  · omega
  · exact absurd hlength (by decide)

lemma IsVoteKey.ne_threshold (h : IsVoteKey key) : key ≠ CGP_AUTH_THRESHOLD := by
  rintro rfl
  revert h
  unfold IsVoteKey
  decide

lemma weight_ne_threshold (hmember : member.length = 42) : member ++ CGP_WEIGTH_SUFFIX ≠ CGP_AUTH_THRESHOLD := by
  intro heq
  have hlength := congrArg length heq
  rw [length_append, hmember] at hlength
  exact absurd hlength (by decide)

lemma weight_ne_weight (hne : member ≠ other) : member ++ CGP_WEIGTH_SUFFIX ≠ other ++ CGP_WEIGTH_SUFFIX :=
  fun heq => hne (append_cancel_right heq)

def Proposal.WellFormed : Proposal → Prop
  | .grantCommitteeMember user => user.length = 42
  | .revokeCommitteeMember user => user.length = 42
  | .updateCommitteeMemberWeight user _ => user.length = 42
  | .updateThreshold _ => True

lemma Proposal.WellFormed.isVoteKey {p : Proposal} (h : p.WellFormed) : IsVoteKey p.key := by
  cases p with
  | updateCommitteeMemberWeight user =>
    have hlength : user.length = 42 := h
    refine .inr (.inl ?_)
    change (user ++ CGP_UPDATE_WEIGTH_SUFFIX).length = 56
    rw [length_append, hlength]
    rfl
  | updateThreshold => exact .inr (.inr rfl)
  | _ => exact .inl h

lemma Proposal.WellFormed.eq_updateThreshold {p : Proposal} (h : p.WellFormed)
    (hkey : p.key = CGP_UPDATE_AUTH_THRESHOLD) : ∃ percent, p = .updateThreshold percent := by
  have hlength : p.key.length = 21 := by
    rw [hkey]
    rfl
  cases p with
  | grantCommitteeMember user | revokeCommitteeMember user =>
    have huser : user.length = 42 := h
    have hlength : user.length = 21 := hlength
    omega
  | updateCommitteeMemberWeight user =>
    have huser : user.length = 42 := h
    have hlength : (user ++ CGP_UPDATE_WEIGTH_SUFFIX).length = 21 := hlength
    rw [length_append] at hlength
    omega
  | updateThreshold percent => exact ⟨percent, rfl⟩

end

structure Committee (rows : List AccessRow) (table : KeyedRows Str CommitteeRow) (number : Int) : Prop where
  length : ∀ m ∈ rows.map address, m.length = 42
  enabled : ∀ row ∈ rows, row.enableNum ≤ number + 1
  nodup : (rows.map address).Nodup
  weights : ∀ m ∈ rows.map address, HasWeight table m
  weightless : ∀ m, m.length = 42 → m ∉ rows.map address → table (m ++ CGP_WEIGTH_SUFFIX) = []
  threshold : ∃ row k, table CGP_AUTH_THRESHOLD = [row] ∧ row.value = .threshold k

namespace Committee

variable {table table' : KeyedRows Str CommitteeRow} {number : Int} {user origin : Str}

section

variable (h : Committee rows table number)

include h

lemma congr (hweight : ∀ m : Str, m.length = 42 → table' (m ++ CGP_WEIGTH_SUFFIX) = table (m ++ CGP_WEIGTH_SUFFIX))
    (hthreshold : table' CGP_AUTH_THRESHOLD = table CGP_AUTH_THRESHOLD) : Committee rows table' number where
  length := h.length
  enabled := h.enabled
  nodup := h.nodup
  weights := by
    intro m hm
    unfold HasWeight
    rw [hweight m (h.length m hm)]
    exact h.weights m hm
  weightless := by
    intro m hlength hm
    rw [hweight m hlength]
    exact h.weightless m hlength hm
  threshold := by
    rw [hthreshold]
    exact h.threshold

lemma mono : Committee rows table (number + 1) :=
  { h with enabled := fun row hrow => (h.enabled row hrow).trans (by omega) }

lemma addMember (huser : user.length = 42) (hnew : user ∉ rows.map address) : Committee (rows ++ [⟨user, number + 1⟩])
      (table.insert (user ++ CGP_WEIGTH_SUFFIX) { value := .weight 1, origin := origin }) number where
  length := by
    intro m hm
    rw [map_append, mem_append] at hm
    cases hm with
    | inl hold => exact h.length m hold
    | inr hm =>
      rw [map_singleton, mem_singleton] at hm
      rw [hm]
      exact huser
  enabled := by
    intro row hrow
    rw [mem_append, mem_singleton] at hrow
    cases hrow with
    | inl hold => exact h.enabled row hold
    | inr hnew => rw [hnew]
  nodup := by
    rw [map_append, map_singleton, nodup_append]
    refine ⟨h.nodup, nodup_singleton _, fun a ha b hb heq => ?_⟩
    rw [heq, mem_singleton.mp hb] at ha
    exact hnew ha
  weights := by
    intro m hm
    unfold HasWeight
    by_cases heq : m = user
    · rw [heq, insert_self, h.weightless user huser hnew]
      exact ⟨_, 1, rfl, rfl, by decide⟩
    · rw [insert_of_ne (weight_ne_weight heq)]
      rw [map_append, mem_append, map_singleton, mem_singleton, or_iff_left heq] at hm
      exact h.weights m hm
  weightless := by
    intro m hlength hm
    rw [map_append, mem_append, map_singleton, mem_singleton, not_or] at hm
    rw [insert_of_ne (weight_ne_weight hm.2)]
    exact h.weightless m hlength hm.1
  threshold := by
    rw [insert_of_ne (weight_ne_threshold huser).symm]
    exact h.threshold

lemma removeMember (huser : user.length = 42) : Committee (rows.filter fun row => !decide (row.address = user))
      (table.remove (user ++ CGP_WEIGTH_SUFFIX) fun _ => true) number := by
  have hmem : ∀ m, m ∈ (rows.filter fun row => !decide (row.address = user)).map address ↔
      m ∈ rows.map address ∧ m ≠ user := by
    intro m
    simp
    constructor
    · rintro ⟨row, ⟨hrow, hne⟩, rfl⟩
      exact ⟨⟨row, hrow, rfl⟩, hne⟩
    · rintro ⟨⟨row, hrow, rfl⟩, hne⟩
      exact ⟨row, ⟨hrow, hne⟩, rfl⟩
  refine ⟨?_, ?_, ?_, ?_, ?_, ?_⟩
  · exact fun m hm => h.length m ((hmem m).mp hm).1
  · exact fun row hrow => h.enabled row (mem_filter.mp hrow).1
  · exact List.Nodup.sublist (filter_sublist.map _) h.nodup
  · intro m hm
    obtain ⟨hold, hne⟩ := (hmem m).mp hm
    unfold HasWeight
    rw [remove_of_ne (weight_ne_weight hne)]
    exact h.weights m hold
  · intro m hlength hm
    by_cases heq : m = user
    · rw [heq, remove_self]
      simp
    · rw [remove_of_ne (weight_ne_weight heq)]
      exact h.weightless m hlength fun hold => hm ((hmem m).mpr ⟨hold, heq⟩)
  · rw [remove_of_ne (weight_ne_threshold huser).symm]
    exact h.threshold

lemma setWeight (huser : user ∈ rows.map address) {weight : Int} (hweight : 0 ≤ weight) :
    Committee rows (table.update (user ++ CGP_WEIGTH_SUFFIX) (fun _ => true) fun row =>
      { row with value := .weight weight, origin := origin }) number where
  length := h.length
  enabled := h.enabled
  nodup := h.nodup
  weights := by
    intro m hm
    unfold HasWeight
    by_cases heq : m = user
    · obtain ⟨row, n, hrow, -, -⟩ := h.weights user huser
      rw [heq, update_self, hrow]
      exact ⟨_, weight, rfl, rfl, hweight⟩
    · rw [update_of_ne (weight_ne_weight heq)]
      exact h.weights m hm
  weightless := by
    intro m hlength hm
    have hne : m ≠ user := by
      rintro rfl
      exact hm huser
    rw [update_of_ne (weight_ne_weight hne)]
    exact h.weightless m hlength hm
  threshold := by
    rw [update_of_ne (weight_ne_threshold (h.length user huser)).symm]
    exact h.threshold

lemma setThreshold {percent : Nat} : Committee rows (table.update CGP_AUTH_THRESHOLD (fun _ => true) fun row =>
      { row with value := .threshold percent, origin := origin }) number where
  length := h.length
  enabled := h.enabled
  nodup := h.nodup
  weights := by
    intro m hm
    unfold HasWeight
    rw [update_of_ne (weight_ne_threshold (h.length m hm))]
    exact h.weights m hm
  weightless := by
    intro m hlength hm
    rw [update_of_ne (weight_ne_threshold hlength)]
    exact h.weightless m hlength hm
  threshold := by
    obtain ⟨row, k, hrow, -⟩ := h.threshold
    rw [update_self, hrow]
    exact ⟨_, percent, rfl, rfl⟩

end

end Committee

def countedStamps (enacted : List Enactment) : List Nat :=
  enacted.flatMap Enactment.counted

/-- Under each key every sender has one vote, stamps tell votes apart, and a vote that was counted is one of those on
the threshold, which are not deleted. -/
structure Ballots (table : KeyedRows Str CommitteeRow) (number : Int) (calls : Nat) (enacted : List Enactment) : Prop where
  origins : ∀ key, IsVoteKey key → ((table key).map origin).Nodup
  limits : ∀ key, IsVoteKey key → ∀ row ∈ table key, ∀ l ∈ row.blockLimit, l ≤ number + c_voteValidLimit
  stamps : ∀ key, IsVoteKey key → ∀ row ∈ table key, row.stamp < calls
  unique : ∀ key key', IsVoteKey key → IsVoteKey key' → ∀ row ∈ table key, ∀ row' ∈ table key',
    row.stamp = row'.stamp → key = key' ∧ row = row'
  countedStamps : ∀ n ∈ countedStamps enacted, n < calls
  counted : ∀ key, IsVoteKey key → ∀ row ∈ table key, row.stamp ∈ FiscoBcos.countedStamps enacted →
    key = CGP_UPDATE_AUTH_THRESHOLD ∧ ∃ en ∈ enacted, ∃ k, row.value = .threshold k ∧
      en.proposal = .updateThreshold k ∧ ∀ l ∈ row.blockLimit, l ≤ en.number + c_voteValidLimit

namespace Ballots

variable {table table' : KeyedRows Str CommitteeRow} {number number' : Int} {calls calls' : Nat} {enacted : List Enactment}
  {p : Proposal}

section

variable (h : Ballots table number calls enacted)

include h

lemma mono (hnumber : number ≤ number') (hcalls : calls ≤ calls') : Ballots table number' calls' enacted where
  origins := h.origins
  limits := by
    intro key hkey row hrow l hl
    have := h.limits key hkey row hrow l hl
    omega
  stamps := fun key hkey row hrow => lt_of_lt_of_le (h.stamps key hkey row hrow) hcalls
  unique := h.unique
  countedStamps := fun n hn => lt_of_lt_of_le (h.countedStamps n hn) hcalls
  counted := h.counted

lemma sublist (hsub : ∀ key, IsVoteKey key → (table' key).Sublist (table key)) :
    Ballots table' number calls enacted where
  origins := fun key hkey => List.Nodup.sublist ((hsub key hkey).map _) (h.origins key hkey)
  limits := fun key hkey row hrow => h.limits key hkey row ((hsub key hkey).subset hrow)
  stamps := fun key hkey row hrow => h.stamps key hkey row ((hsub key hkey).subset hrow)
  unique := fun key key' hkey hkey' row hrow row' hrow' =>
    h.unique key key' hkey hkey' row ((hsub key hkey).subset hrow) row' ((hsub key' hkey').subset hrow')
  countedStamps := h.countedStamps
  counted := fun key hkey row hrow => h.counted key hkey row ((hsub key hkey).subset hrow)

lemma record {key : Str} (hkey : IsVoteKey key) (value : CommitteeValue)
    (origin : Str) : Ballots (recordVote number key value table calls origin) number (calls + 1) enacted := by
  -- a row is the new vote or an old one
  have hrow : ∀ key', ∀ row ∈ recordVote number key value table calls origin key',
      (key' = key ∧ row = ⟨value, origin, some (number + c_voteValidLimit), calls⟩) ∨ row ∈ table key' := by
    intro key' row hrow
    by_cases heq : key' = key
    · subst heq
      cases mem_recordVote hrow with
      | inl hnew => exact .inl ⟨rfl, hnew⟩
      | inr hold => exact .inr hold.1
    · rw [recordVote_of_ne heq] at hrow
      exact .inr hrow
  refine ⟨?_, ?_, ?_, ?_, ?_, ?_⟩
  · intro key' hkey'
    by_cases heq : key' = key
    · subst heq
      exact origins_recordVote (h.origins key' hkey')
    · rw [recordVote_of_ne heq]
      exact h.origins key' hkey'
  · intro key' hkey' row hmem l hl
    cases hrow key' row hmem with
    | inl hnew =>
      rw [hnew.2] at hl
      exact (Option.some.inj hl).ge
    | inr hold => exact h.limits key' hkey' row hold l hl
  · intro key' hkey' row hmem
    cases hrow key' row hmem with
    | inl hnew =>
      rw [hnew.2]
      exact Nat.lt_succ_self _
    | inr hold => exact Nat.lt_succ_of_lt (h.stamps key' hkey' row hold)
  · intro key₁ key₂ hkey₁ hkey₂ row₁ hmem₁ row₂ hmem₂ hstamp
    cases hrow key₁ row₁ hmem₁ with
    | inl hnew₁ =>
      cases hrow key₂ row₂ hmem₂ with
      | inl hnew₂ => exact ⟨hnew₁.1.trans hnew₂.1.symm, hnew₁.2.trans hnew₂.2.symm⟩
      | inr hold₂ =>
        have hlt := h.stamps key₂ hkey₂ row₂ hold₂
        rw [← hstamp, hnew₁.2] at hlt
        exact absurd hlt (lt_irrefl _)
    | inr hold₁ =>
      cases hrow key₂ row₂ hmem₂ with
      | inl hnew₂ =>
        have hlt := h.stamps key₁ hkey₁ row₁ hold₁
        rw [hstamp, hnew₂.2] at hlt
        exact absurd hlt (lt_irrefl _)
      | inr hold₂ => exact h.unique key₁ key₂ hkey₁ hkey₂ row₁ hold₁ row₂ hold₂ hstamp
  · exact fun n hn => Nat.lt_succ_of_lt (h.countedStamps n hn)
  · intro key' hkey' row hmem hcounted
    cases hrow key' row hmem with
    | inl hnew =>
      rw [hnew.2] at hcounted
      exact absurd (h.countedStamps _ hcounted) (lt_irrefl _)
    | inr hold => exact h.counted key' hkey' row hold hcounted

lemma consUncounted {since : Int} : Ballots table number calls (⟨p, since, []⟩ :: enacted) :=
  { h with
    counted := fun key hkey row hrow hcounted => by
      obtain ⟨hauth, en, hen, hrest⟩ := h.counted key hkey row hrow hcounted
      exact ⟨hauth, en, mem_cons_of_mem _ hen, hrest⟩ }

/-- The votes for a proposal that takes effect are deleted, unless they are votes on the threshold. -/
theorem enact (hp : p.WellFormed) (hsub : ∀ key, IsVoteKey key → (table' key).Sublist (table key))
    (hused : (∃ k, p = .updateThreshold k) ∨ ∀ row ∈ table' p.key, row.value ≠ p.value) : Ballots table' number calls
      (⟨p, number, (countedVotes p.key p.value table (number + 1)).map stamp⟩ :: enacted) := by
  have hfewer := h.sublist hsub
  refine ⟨hfewer.origins, hfewer.limits, hfewer.stamps, hfewer.unique, ?_, ?_⟩
  · intro n hn
    unfold FiscoBcos.countedStamps at hn
    rw [flatMap_cons, mem_append] at hn
    cases hn with
    | inl hnow =>
      obtain ⟨row, hrow, rfl⟩ := mem_map.mp hnow
      exact h.stamps p.key hp.isVoteKey row (mem_filter.mp hrow).1
    | inr hold => exact h.countedStamps n hold
  · intro key hkey row hrow hcounted
    unfold FiscoBcos.countedStamps at hcounted
    rw [flatMap_cons, mem_append] at hcounted
    cases hcounted with
    | inl hnow =>
      obtain ⟨vote, hvote, hstamp⟩ := mem_map.mp hnow
      obtain ⟨hvote, haccepted⟩ := mem_filter.mp hvote
      have hvalue : vote.value = p.value := by
        have haccepted := of_decide_eq_true haccepted
        exact haccepted.1
      obtain ⟨rfl, rfl⟩ := h.unique key p.key hkey hp.isVoteKey row ((hsub key hkey).subset hrow) vote hvote hstamp.symm
      cases hused with
      | inr hdeleted => exact absurd hvalue (hdeleted row hrow)
      | inl hthreshold =>
        obtain ⟨k, rfl⟩ := hthreshold
        exact ⟨rfl, _, mem_cons_self, k, hvalue, rfl, fun l hl => h.limits _ hkey row hvote l hl⟩
    | inr hold =>
      obtain ⟨hauth, en, hen, k, hvalue, hproposal, hlimit⟩ := hfewer.counted key hkey row hrow hold
      exact ⟨hauth, en, mem_cons_of_mem _ hen, k, hvalue, hproposal, hlimit⟩

end

end Ballots

section

variable {s : Governance} {origin : H160} {table : KeyedRows Str CommitteeRow} {number : Int} {calls : Nat}
  {enacted : List Enactment} {key : Str}

lemma recordVote_committee (h : Committee rows table number) (hkey : IsVoteKey key) (value : CommitteeValue)
    (stamp : Nat) (sender : Str) : Committee rows (recordVote number key value table stamp sender) number :=
  h.congr (fun _ hm => recordVote_of_ne (hkey.ne_weight hm).symm) (recordVote_of_ne hkey.ne_threshold.symm)

lemma deleteUsedVotes_committee (h : Committee rows table number)
    (hweight : ∀ m : Str, m.length = 42 → m ++ CGP_WEIGTH_SUFFIX ≠ key) (hthreshold : CGP_AUTH_THRESHOLD ≠ key) :
    Committee rows (deleteUsedVotes key value table) number :=
  h.congr (fun m hm => remove_of_ne (hweight m hm)) (remove_of_ne hthreshold)

def Proposes (s : Governance) : Call → Proposal → Prop
  | .grantCommitteeMember user, p =>
    p = .grantCommitteeMember user.hexPrefixed ∧ s.access.select SYS_ACCESS_TABLE user.hexPrefixed = []
  | .revokeCommitteeMember user, p =>
    p = .revokeCommitteeMember user.hexPrefixed ∧ s.access.select SYS_ACCESS_TABLE user.hexPrefixed ≠ []
  | .updateCommitteeMemberWeight user weight, p =>
    p = .updateCommitteeMemberWeight user.hexPrefixed weight ∧ s.access.select SYS_ACCESS_TABLE user.hexPrefixed ≠ []
  | .updateThreshold weight, p => p = .updateThreshold weight.toNat
  | _, _ => False

variable {p : Proposal} {address name : Str} {t : AccessTable}

lemma Proposes.wellFormed {c : Call} (h : Proposes s c p) : p.WellFormed := by
  cases c with
  | grantCommitteeMember user | revokeCommitteeMember user | updateCommitteeMemberWeight user weight =>
    rw [h.1]
    exact user.isAddressText.2.1
  | updateThreshold weight =>
    have heq : p = .updateThreshold weight.toNat := h
    rw [heq]
    trivial
  | _ => exact h.elim

lemma rows_insert_unchecked :
    (t.insert name address { check := false }).2.rows name = t.rows name ++ [⟨address, t.number + 1⟩] := by
  exact insert_self _

lemma rows_remove_unchecked : (t.remove name address { check := false }).2.rows name =
      (t.rows name).filter fun row => !decide (row.address = address) := by
  exact remove_self

lemma mem_members : t.select name address ≠ [] ↔ address ∈ (t.rows name).map AccessRow.address := by
  rw [ne_eq, select_eq_nil, List.mem_map]
  constructor
  · intro h
    by_contra hnone
    exact h fun row hrow heq => hnone ⟨row, hrow, heq⟩
  · rintro ⟨row, hrow, heq⟩ h
    exact h row hrow heq

lemma committee_enact {c : Call} (h : Committee (s.access.rows SYS_ACCESS_TABLE) table s.access.number)
    (hp : Proposes s c p) (hweight : ∀ user weight, c = .updateCommitteeMemberWeight user weight → 0 ≤ weight) :
    Committee ((enactAccess s origin table p).2.rows SYS_ACCESS_TABLE) (enactCommittee origin table p)
      s.access.number := by
  cases c with
  | grantCommitteeMember user =>
    obtain ⟨rfl, hnew⟩ := hp
    have hlength : user.hexPrefixed.length = 42 := user.isAddressText.2.1
    have hkey : IsVoteKey user.hexPrefixed := .inl hlength
    unfold enactAccess
    rw [rows_grantTablePermission_of_ne (by decide), rows_grantTablePermission_of_ne (by decide), rows_insert_unchecked]
    refine deleteUsedVotes_committee (h.addMember hlength fun hmem => mem_members.mpr hmem hnew) ?_ ?_
    · exact fun m hm => (hkey.ne_weight hm).symm
    · exact hkey.ne_threshold.symm
  | revokeCommitteeMember user =>
    obtain ⟨rfl, -⟩ := hp
    have hlength : user.hexPrefixed.length = 42 := user.isAddressText.2.1
    have hkey : IsVoteKey user.hexPrefixed := .inl hlength
    unfold enactAccess revokeTablePermission
    rw [rows_remove_of_ne (by decide), rows_remove_of_ne (by decide), rows_remove_unchecked]
    refine deleteUsedVotes_committee (h.removeMember hlength) ?_ ?_
    · exact fun m hm => (hkey.ne_weight hm).symm
    · exact hkey.ne_threshold.symm
  | updateCommitteeMemberWeight user weight =>
    have hkey := hp.wellFormed.isVoteKey
    obtain ⟨rfl, hmember⟩ := hp
    refine deleteUsedVotes_committee (h.setWeight (mem_members.mp hmember) (hweight user weight rfl)) ?_ ?_
    · exact fun m hm => (hkey.ne_weight hm).symm
    · exact hkey.ne_threshold.symm
  | updateThreshold weight =>
    have heq : p = .updateThreshold weight.toNat := hp
    rw [heq]
    refine deleteUsedVotes_committee h.setThreshold ?_ (by decide)
    intro m hm hkey
    have hlength := congrArg length hkey
    rw [length_append, hm] at hlength
    exact absurd hlength (by decide)
  | _ => exact hp.elim

lemma deleteUsedVotes_sublist {other : Str} : (deleteUsedVotes key value table other).Sublist (table other) := by
  unfold deleteUsedVotes
  by_cases heq : other = key
  · rw [heq, remove_self]
    exact filter_sublist
  · rw [remove_of_ne heq]

lemma value_ne_of_mem_deleteUsedVotes {row : CommitteeRow}
    (h : row ∈ deleteUsedVotes key value table key) : row.value ≠ value := by
  unfold deleteUsedVotes at h
  rw [remove_self] at h
  simpa using (mem_filter.mp h).2

lemma ballots_enact (h : Ballots table number calls enacted) (hp : p.WellFormed) :
    Ballots (enactCommittee origin table p) number calls
      (⟨p, number, (countedVotes p.key p.value table (number + 1)).map stamp⟩ :: enacted) := by
  refine h.enact hp (fun other hother => ?_) ?_
  · cases p with
    | grantCommitteeMember =>
      refine deleteUsedVotes_sublist.trans ?_
      rw [insert_of_ne (hother.ne_weight hp)]
    | revokeCommitteeMember =>
      refine deleteUsedVotes_sublist.trans ?_
      rw [remove_of_ne (hother.ne_weight hp)]
    | updateCommitteeMemberWeight =>
      refine deleteUsedVotes_sublist.trans ?_
      rw [update_of_ne (hother.ne_weight hp)]
    | updateThreshold =>
      refine deleteUsedVotes_sublist.trans ?_
      rw [update_of_ne hother.ne_threshold]
  · cases p with
    | updateThreshold percent => exact .inl ⟨percent, rfl⟩
    | _ => exact .inr fun row hrow => value_ne_of_mem_deleteUsedVotes hrow

end

end FiscoBcos
