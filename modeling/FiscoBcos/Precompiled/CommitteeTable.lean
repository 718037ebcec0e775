import Mathlib.Algebra.BigOperators.Ring.Finset
import FiscoBcos.Precompiled.ChainGovernance

/-!
# Votes and weights of the committee

If the weights are not negative and their sum is at most `2 ^ 53`, the doubles are exact and what `validate` accepts has
more weight than the threshold asks for, as rational numbers.
-/

namespace FiscoBcos

open List Option CommitteeRow AccessRow Rounding List.Nodup

variable (w : Str → Nat)

namespace ChainGovernancePrecompiled

open KeyedRows

section

variable {number : Int} {key other : Str} {value : CommitteeValue} {table : KeyedRows Str CommitteeRow} {stamp : Nat}
  {origin : Str}

lemma recordVote_of_ne (h : other ≠ key) : recordVote number key value table stamp origin other = table other := by
  unfold recordVote
  rw [remove_of_ne h]
  split
  · exact update_of_ne h _ _
  · exact insert_of_ne h

lemma mem_recordVote {row : CommitteeRow} (h : row ∈ recordVote number key value table stamp origin key) :
    row = ⟨value, origin, some (number + c_voteValidLimit), stamp⟩ ∨ row ∈ table key ∧ row.origin ≠ origin := by
  unfold recordVote at h
  rw [remove_self] at h
  have h := (mem_filter.mp h).1
  split at h
  · rw [update_self] at h
    obtain ⟨old, hold, rfl⟩ := mem_map.mp h
    split
    · exact .inl rfl
    · rename_i hne
      exact .inr ⟨hold, by simpa using hne⟩
  · rename_i hnone
    rw [insert_self, mem_append, mem_singleton] at h
    cases h with
    | inl hold =>
      refine .inr ⟨hold, fun heq => hnone ?_⟩
      rw [List.any_eq_true]
      exact ⟨row, hold, by simpa using heq⟩
    | inr hnew => exact .inl hnew

lemma origins_recordVote (h : ((table key).map CommitteeRow.origin).Nodup) :
    ((recordVote number key value table stamp origin key).map CommitteeRow.origin).Nodup := by
  unfold recordVote
  rw [remove_self]
  refine sublist (filter_sublist.map _) ?_
  split
  · -- a vote that is replaced keeps its sender
    rw [update_self, List.map_map]
    have hsame : (table key).map (CommitteeRow.origin ∘ fun row =>
        if decide (row.origin = origin) then
          (⟨value, origin, some (number + c_voteValidLimit), stamp⟩ : CommitteeRow) else row) =
        (table key).map CommitteeRow.origin := by
      refine map_congr_left fun row _ => ?_
      rw [Function.comp_apply]
      split
      · rename_i heq
        exact (of_decide_eq_true heq).symm
      · rfl
    rw [hsame]
    exact h
  · rename_i hnone
    rw [insert_self, map_append, nodup_append]
    refine ⟨h, nodup_singleton _, fun a ha b hb => ?_⟩
    obtain ⟨row, hrow, rfl⟩ := mem_map.mp ha
    rw [map_singleton, mem_singleton] at hb
    rw [hb]
    intro heq
    exact hnone (any_eq_true.mpr ⟨row, hrow, by simpa using heq⟩)

end

section

variable (table : KeyedRows Str CommitteeRow)

def weightOf (member : Str) : Int :=
  match (table (member ++ CGP_WEIGTH_SUFFIX)).head?.map value with
  | some (.weight n) => n
  | _ => 0

def totalWeight (members : List Str) : Int :=
  (members.map (weightOf table)).sum

def thresholdPercent : Nat :=
  match (table CGP_AUTH_THRESHOLD).head?.map value with
  | some (.threshold percent) => percent
  | _ => 50

def HasWeight (member : Str) : Prop :=
  ∃ row n, table (member ++ CGP_WEIGTH_SUFFIX) = [row] ∧ row.value = .weight n ∧ 0 ≤ n

variable {table} {member : Str}

lemma HasWeight.nonneg (h : HasWeight table member) : 0 ≤ weightOf table member := by
  obtain ⟨row, n, hrow, hvalue, hn⟩ := h
  unfold weightOf
  rw [hrow, head?_cons, map_some, hvalue]
  exact hn

lemma HasWeight.memberWeight (h : HasWeight table member) (hmax : weightOf table member ≤ 2 ^ 53) :
    memberWeight table member = some ((weightOf table member).toNat : Rat) := by
  obtain ⟨row, n, hrow, hvalue, hn⟩ := h
  unfold weightOf at hmax ⊢
  unfold ChainGovernancePrecompiled.memberWeight
  rw [hrow, head?_cons, map_some, hvalue] at hmax ⊢
  rw [bind_some, hvalue]
  obtain ⟨k, rfl⟩ := Int.eq_ofNat_of_zero_le hn
  have hmax : (k : Int) ≤ 2 ^ 53 := hmax
  have hk : k ≤ 2 ^ 53 := by exact_mod_cast hmax
  change some (toPrecision 53 ((k : Int) : Rat)) = some (((k : Int).toNat : Nat) : Rat)
  rw [Int.toNat_natCast, Int.cast_natCast, toPrecision_natCast (by decide) hk]

lemma foldl_toDouble {α : Type*} (l : List α) (f : α → Nat) (h : (l.map f).sum ≤ 2 ^ 53) :
    l.foldl (fun sum a => toDouble (sum + (f a : Rat))) 0 = ((l.map f).sum : Nat) := by
  have hexact := foldl_toPrecision (p := 53) (by decide) (show 0 + (l.map f).sum ≤ 2 ^ 53 by omega)
  rw [List.map_map, List.foldl_map, Nat.cast_zero, zero_add] at hexact
  exact hexact

lemma memberWeights_eq {w : Str → Rat} {entries : List AccessRow}
    (h : ∀ entry ∈ entries, memberWeight table entry.address = some (w entry.address)) :
    memberWeights table entries = some (entries.map fun entry => (entry.address, w entry.address)) := by
  induction entries with
  | nil => rfl
  | cons entry entries ih =>
    rw [memberWeights, h entry mem_cons_self, ih fun e he => h e (mem_cons_of_mem _ he)]
    rfl

lemma lookup_weights (entries : List AccessRow) (origin : Str) :
    ((entries.map fun entry => (entry.address, (w entry.address : Rat))).lookup origin).getD 0 =
      ((if origin ∈ entries.map address then w origin else 0 : Nat) : Rat) := by
  induction entries with
  | nil => simp
  | cons entry entries ih =>
    rw [map_cons, lookup_cons]
    by_cases heq : origin = entry.address
    · simp [heq]
    · simp only [beq_eq_false_iff_ne.mpr heq, ih, map_cons, mem_cons, heq, false_or]

lemma sum_votes_filter (votes : List CommitteeRow) (members : List Str) :
    (votes.map fun vote => if vote.origin ∈ members then w vote.origin else 0).sum =
      ((votes.filter fun vote => vote.origin ∈ members).map fun vote => w vote.origin).sum := by
  rw [sum_map_ite]
  simp

variable {members : List Str}

lemma sum_votes_le {votes : List CommitteeRow} (hvotes : (votes.map origin).Nodup) (hmembers : members.Nodup) :
    (votes.map fun vote => if vote.origin ∈ members then w vote.origin else 0).sum ≤ (members.map w).sum := by
  have hnodup : ((votes.filter fun vote => vote.origin ∈ members).map origin).Nodup :=
    sublist ((List.filter_sublist).map _) hvotes
  have hsum : ((votes.filter fun vote => vote.origin ∈ members).map fun vote => w vote.origin).sum =
      (((votes.filter fun vote => vote.origin ∈ members).map origin).map w).sum := by
    rw [List.map_map]
    rfl
  rw [sum_votes_filter, hsum, ← List.sum_toFinset w hnodup, ← List.sum_toFinset w hmembers]
  refine Finset.sum_le_sum_of_subset fun origin horigin => ?_
  rw [List.mem_toFinset, List.mem_map] at horigin
  obtain ⟨vote, hvote, rfl⟩ := horigin
  simpa using (List.mem_filter.mp hvote).2

lemma weightOf_le_total (hweights : ∀ m ∈ members, HasWeight table m) (hmember : member ∈ members) :
    weightOf table member ≤ totalWeight table members := by
  refine single_le_sum (fun n hn => ?_) _ (mem_map_of_mem hmember)
  obtain ⟨m, hm, rfl⟩ := mem_map.mp hn
  exact (hweights m hm).nonneg

lemma totalWeight_eq (hweights : ∀ m ∈ members, HasWeight table m) :
    totalWeight table members = ((members.map fun m => (weightOf table m).toNat).sum : Nat) := by
  unfold totalWeight
  rw [Nat.cast_list_sum, List.map_map]
  exact congrArg List.sum (map_congr_left fun m hm => (Int.toNat_of_nonneg (hweights m hm).nonneg).symm)

lemma lt_of_quotientExceeds {votes total percent : Nat} (hle : votes ≤ total)
    (h : quotientExceeds votes total (toDouble (percent / 100)) = true) : percent * total < 100 * votes := by
  unfold quotientExceeds at h
  split at h
  · rename_i hzero
    have hzero : total = 0 := by exact_mod_cast hzero
    have hvotes : (0 : Rat) < votes := by simpa using h
    have hvotes : 0 < votes := by exact_mod_cast hvotes
    omega
  · rename_i hpos
    have hpos : (0 : Rat) < total := by
      have hne : total ≠ 0 := fun heq => hpos (by rw [heq, Nat.cast_zero])
      exact_mod_cast pos_of_ne_zero hne
    have hlt : (percent : Rat) / 100 < votes / total :=
      lt_of_toPrecision_lt (p := 53) (by decide) (by positivity) (of_decide_eq_true h)
    rw [div_lt_div_iff₀ (by norm_num) hpos] at hlt
    have hlt : percent * total < votes * 100 := by exact_mod_cast hlt
    omega

end

section

variable {access : AccessTable} {table : KeyedRows Str CommitteeRow} {key : Str} {value : CommitteeValue}
  {blockNumber : Int}

lemma lt_of_validate (hrows : access.rows SYS_ACCESS_TABLE ≠ [])
    (henabled : ∀ row ∈ access.rows SYS_ACCESS_TABLE, row.enableNum ≤ blockNumber)
    (hmembers : ((access.rows SYS_ACCESS_TABLE).map address).Nodup)
    (hweights : ∀ m ∈ (access.rows SYS_ACCESS_TABLE).map address, HasWeight table m)
    (hmax : totalWeight table ((access.rows SYS_ACCESS_TABLE).map address) ≤ 2 ^ 53)
    (hthreshold : ∃ row k, table CGP_AUTH_THRESHOLD = [row] ∧ row.value = .threshold k)
    (horigins : ((table key).map origin).Nodup) (h : validate key value table access blockNumber = some true) :
    let members := (access.rows SYS_ACCESS_TABLE).map address
    let votes := (countedVotes key value table blockNumber).filter fun vote => vote.origin ∈ members
    thresholdPercent table * totalWeight table members <
      100 * (votes.map fun vote => weightOf table vote.origin).sum := by
  intro members votes
  obtain ⟨row, percent, hrow, hvalue⟩ := hthreshold
  have hcurrent : currentThreshold table = some (toDouble (percent / 100)) := by
    unfold currentThreshold
    rw [hrow]
    dsimp only
    rw [hvalue]
    rfl
  have hpercent : thresholdPercent table = percent := by
    unfold thresholdPercent
    rw [hrow, head?_cons, map_some, hvalue]
  have hread : memberWeights table (access.rows SYS_ACCESS_TABLE) =
      some ((access.rows SYS_ACCESS_TABLE).map fun entry =>
        (entry.address, (((weightOf table entry.address).toNat : Nat) : Rat))) := by
    refine memberWeights_eq (w := fun m => (((weightOf table m).toNat : Nat) : Rat)) fun entry hentry => ?_
    have hmember : entry.address ∈ members := mem_map_of_mem hentry
    exact (hweights _ hmember).memberWeight ((weightOf_le_total hweights hmember).trans hmax)
  have htotal := totalWeight_eq hweights
  rw [htotal] at hmax
  have hmax : (members.map fun m => (weightOf table m).toNat).sum ≤ 2 ^ 53 := by exact_mod_cast hmax
  have hdistinct : ((countedVotes key value table blockNumber).map origin).Nodup :=
    sublist (filter_sublist.map _) horigins
  have hle := sum_votes_le (fun m => (weightOf table m).toNat) hdistinct hmembers
  unfold validate at h
  rw [filter_eq_self.mpr fun row hrow => by simpa using henabled row hrow, if_neg hrows, hread, bind_some,
    hcurrent, map_some, foldl_map] at h
  have h := some.inj h
  simp only [lookup_weights fun m => (weightOf table m).toNat] at h
  rw [foldl_toDouble (access.rows SYS_ACCESS_TABLE) (fun entry => (weightOf table entry.address).toNat)
      (by simpa [members, Function.comp_def] using hmax),
    foldl_toDouble (countedVotes key value table blockNumber)
      (fun vote => if vote.origin ∈ members then (weightOf table vote.origin).toNat else 0) (hle.trans hmax)] at h
  have hsum : ((access.rows SYS_ACCESS_TABLE).map fun entry => (weightOf table entry.address).toNat).sum =
      (members.map fun m => (weightOf table m).toNat).sum := by
    rw [List.map_map]
    rfl
  rw [hsum] at h
  have hlt := lt_of_quotientExceeds hle h
  rw [sum_votes_filter (fun m => (weightOf table m).toNat)] at hlt
  have hvotes : (votes.map fun vote => weightOf table vote.origin).sum =
      ((votes.map fun vote => (weightOf table vote.origin).toNat).sum : Nat) := by
    have hweights' : ∀ m ∈ votes.map origin, HasWeight table m := by
      intro m hm
      obtain ⟨vote, hvote, rfl⟩ := mem_map.mp hm
      exact hweights _ (of_decide_eq_true (mem_filter.mp hvote).2)
    have heq := totalWeight_eq hweights'
    unfold totalWeight at heq
    rw [List.map_map, List.map_map] at heq
    exact heq
  rw [hpercent, htotal, hvotes]
  exact_mod_cast hlt

end

end ChainGovernancePrecompiled

end FiscoBcos
