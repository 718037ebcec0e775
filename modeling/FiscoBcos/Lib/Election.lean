import Mathlib.Data.Fintype.Card
import Mathlib.Data.List.Pairwise

/-!
# Elections by terms

Nodes ask for votes in numbered terms and grant them to one another; a grant travels, may get lost, and counts once. A
candidate may give up and go back by one term.
-/

namespace Election

open List Function Nat

variable {ι : Type*}

structure Vote (ι : Type*) where
  voter : ι
  candidate : ι
  term : ℕ

inductive Role where
  | follower
  | candidate (votes : ℕ)
  | leader

def Role.isCandidate : Role → Bool
  | .candidate _ => true
  | _ => false

structure Node where
  term : ℕ
  role : Role

/-- The first term in which the node has not voted, and the last in which it can have asked for votes. -/
def Node.reach (a : Node) : ℕ :=
  if a.role.isCandidate then a.term else a.term + 1

/-- `flying c t` is the number of grants to `c` for term `t` on their way; `votes` remembers every vote, the one of a
leader for itself among them. -/
structure State (ι : Type*) where
  nodes : ι → Node
  flying : ι → ℕ → ℕ
  votes : List (Vote ι)

open Node

lemma Node.reach_of_candidate {a : Node} {v : ℕ} (h : a.role = .candidate v) : a.reach = a.term := by
  unfold reach
  rw [h]
  rfl

lemma Node.reach_le (a : Node) : a.reach ≤ a.term + 1 := by
  unfold reach
  split <;> omega

section Protocol

variable [DecidableEq ι]

def State.tally (s : State ι) (c : ι) (t : ℕ) : ℕ :=
  s.votes.countP fun v => v.candidate = c ∧ v.term = t

def State.set (s : State ι) (i : ι) (a : Node) : State ι :=
  { s with nodes := update s.nodes i a }

def State.record (s : State ι) (v : Vote ι) : State ι :=
  { s with votes := v :: s.votes }

inductive Step (quorum : ℕ) : State ι → State ι → Prop where
  | campaign (s : State ι) (i : ι) : Step quorum s (s.set i ⟨(s.nodes i).term + 1, .candidate 0⟩)
  | recount (s : State ι) (i : ι) {v w : ℕ} (hrole : (s.nodes i).role = .candidate v)
      (hw : w ≤ 1 ∨ w ≤ v) : Step quorum s (s.set i ⟨(s.nodes i).term, .candidate w⟩)
  | retreat (s : State ι) (i : ι) {v t : ℕ} (hrole : (s.nodes i).role = .candidate v)
      (ht : (s.nodes i).term ≤ t + 1) : Step quorum s (s.set i ⟨t, .follower⟩)
  | follow (s : State ι) (i : ι) {t : ℕ} (ht : (s.nodes i).term ≤ t) : Step quorum s (s.set i ⟨t, .follower⟩)
  | grant (s : State ι) (i c : ι) {t : ℕ} (hne : i ≠ c) (ht : (s.nodes i).term < t)
      (hreach : t ≤ (s.nodes c).reach) {flying : ι → ℕ → ℕ}
      (hflying : ∀ c' t', flying c' t' ≤ s.flying c' t' + if c' = c ∧ t' = t then 1 else 0) :
      Step quorum s ({ s with flying := flying }.set i ⟨t, .follower⟩ |>.record ⟨i, c, t⟩)
  | count (s : State ι) (i : ι) {v t : ℕ} (hrole : (s.nodes i).role = .candidate v)
      (ht : (s.nodes i).term ≤ t) {flying : ι → ℕ → ℕ}
      (hflying : ∀ c' t', flying c' t' + (if c' = i ∧ t' = t then 1 else 0) ≤ s.flying c' t') :
      Step quorum s ({ s with flying := flying }.set i ⟨(s.nodes i).term, .candidate (v + 1)⟩)
  | lose (s : State ι) {flying : ι → ℕ → ℕ} (hflying : ∀ c t, flying c t ≤ s.flying c t) :
      Step quorum s { s with flying := flying }
  | win (s : State ι) (i : ι) {v : ℕ} (hrole : (s.nodes i).role = .candidate v) (hv : quorum ≤ v) :
      Step quorum s (s.set i ⟨(s.nodes i).term, .leader⟩ |>.record ⟨i, i, (s.nodes i).term⟩)

/-- What makes the election safe: votes are cast below the voter's reach, one for a term, and every counted vote is one
that was cast. -/
structure Inv (quorum : ℕ) (s : State ι) : Prop where
  cast : ∀ v ∈ s.votes, v.term < (s.nodes v.voter).reach
  asked : ∀ v ∈ s.votes, v.term ≤ (s.nodes v.candidate).reach
  oneVote : s.votes.Pairwise fun v w => v.voter = w.voter → v.term ≠ w.term
  flying : ∀ c t, s.flying c t ≤ s.tally c t
  counted : ∀ i v, (s.nodes i).role = .candidate v → v + s.flying i (s.nodes i).term ≤ 1 + s.tally i (s.nodes i).term
  won : ∀ v ∈ s.votes, v.voter = v.candidate → quorum ≤ s.tally v.candidate v.term

def Leads (s : State ι) : Prop :=
  ∀ i, (s.nodes i).role = .leader → ⟨i, i, (s.nodes i).term⟩ ∈ s.votes

variable {quorum : ℕ} {s s' : State ι}

lemma State.nodes_set_self (s : State ι) (i : ι) (a : Node) : (s.set i a).nodes i = a :=
  update_self _ _ _

variable {i : ι} {a : Node} {t v : ℕ} {flying : ι → ℕ → ℕ}

lemma State.nodes_set_of_ne {j : ι} (h : j ≠ i) (a : Node) : (s.set i a).nodes j = s.nodes j :=
  update_of_ne h _ _

open State

lemma State.set_set (s : State ι) (i : ι) (a b : Node) : (s.set i a).set i b = s.set i b := by
  unfold set
  rw [update_idem]

lemma State.set_self (h : s.nodes i = a) : s.set i a = s := by
  unfold set
  rw [← h, update_eq_self]

lemma State.tally_record (s : State ι) (v : Vote ι) (c : ι) (t : ℕ) :
    (s.record v).tally c t = s.tally c t + if c = v.candidate ∧ t = v.term then 1 else 0 := by
  unfold tally record
  rw [countP_cons]
  simp only [decide_eq_true_eq, eq_comm (a := v.candidate), eq_comm (a := v.term)]

section

variable (h : Inv quorum s)

include h

/-- A node may change as long as it reaches as far as before and has counted what was cast. -/
theorem Inv.set (hreach : (s.nodes i).reach ≤ a.reach)
    (hcounted : ∀ v, a.role = .candidate v → v + s.flying i a.term ≤ 1 + s.tally i a.term) : Inv quorum (s.set i a) := by
  have hle : ∀ j, (s.nodes j).reach ≤ ((s.set i a).nodes j).reach := by
    intro j
    by_cases hj : j = i
    · subst hj
      rw [s.nodes_set_self]
      exact hreach
    · rw [nodes_set_of_ne hj]
  refine ⟨fun v hv => (h.cast v hv).trans_le (hle _), fun v hv => (h.asked v hv).trans (hle _),
    h.oneVote, h.flying, fun j v hrole => ?_, h.won⟩
  by_cases hj : j = i
  · subst hj
    rw [s.nodes_set_self] at hrole ⊢
    exact hcounted v hrole
  · rw [nodes_set_of_ne hj] at hrole ⊢
    exact h.counted j v hrole

lemma Inv.set_follower (hreach : (s.nodes i).reach ≤ t + 1) : Inv quorum (s.set i ⟨t, .follower⟩) :=
  h.set hreach fun v hv => by cases hv

lemma Inv.lose (hflying : ∀ c t, flying c t ≤ s.flying c t) : Inv quorum { s with flying := flying } where
  cast := h.cast
  asked := h.asked
  oneVote := h.oneVote
  flying c t := (hflying c t).trans (h.flying c t)
  counted i v hrole := (Nat.add_le_add_left (hflying _ _) v).trans (h.counted i v hrole)
  won := h.won

/-- A vote in a term in which its voter had not voted, for a candidate that can have asked for it; one more grant may be
on its way then. -/
theorem Inv.record {v : Vote ι} (hcast : v.term < (s.nodes v.voter).reach)
    (hasked : v.term ≤ (s.nodes v.candidate).reach) (hnew : ∀ w ∈ s.votes, w.voter = v.voter → w.term ≠ v.term)
    (hflying : ∀ c t, flying c t ≤ s.flying c t + if c = v.candidate ∧ t = v.term then 1 else 0)
    (hwon : v.voter = v.candidate → quorum ≤ s.tally v.candidate v.term + 1) : Inv quorum (record { s with flying := flying } v) := by
  have htally : ∀ c t, (State.record { s with flying := flying } v).tally c t =
      s.tally c t + if c = v.candidate ∧ t = v.term then 1 else 0 :=
    tally_record { s with flying := flying } v
  refine ⟨fun w hw => ?_, fun w hw => ?_, ?_, fun c t => ?_, fun i w hrole => ?_, fun w hw hself => ?_⟩
  · rcases mem_cons.mp hw with rfl | hw
    · exact hcast
    · exact h.cast w hw
  · rcases mem_cons.mp hw with rfl | hw
    · exact hasked
    · exact h.asked w hw
  · exact pairwise_cons.mpr ⟨fun w hw hvoter => (hnew w hw hvoter.symm).symm, h.oneVote⟩
  · rw [htally]
    have hold := h.flying c t
    exact (hflying c t).trans (Nat.add_le_add_right hold _)
  · rw [htally]
    have hold := h.counted i w hrole
    calc w + flying i (s.nodes i).term
      _ ≤ w + (s.flying i (s.nodes i).term + _) := Nat.add_le_add_left (hflying i _) w
      _ ≤ 1 + s.tally i (s.nodes i).term + _ := by
        rw [← Nat.add_assoc]
        exact Nat.add_le_add_right hold _
      _ = 1 + (s.tally i (s.nodes i).term + _) := Nat.add_assoc _ _ _
  · rw [htally]
    rcases mem_cons.mp hw with rfl | hw
    · rw [if_pos ⟨rfl, rfl⟩]
      exact hwon hself
    · exact (h.won w hw hself).trans (Nat.le_add_right _ _)

lemma Inv.not_voted (ht : (s.nodes i).reach ≤ t) : ∀ w ∈ s.votes, w.voter = i → w.term ≠ t := by
  intro w hw hvoter heq
  have hcast := h.cast w hw
  rw [hvoter, heq] at hcast
  omega

lemma Inv.term_le_of_flying
    (hrole : (s.nodes i).role = .candidate v) (hpos : 0 < s.flying i t) : t ≤ (s.nodes i).term := by
  have htally : 0 < s.tally i t := hpos.trans_le (h.flying i t)
  obtain ⟨w, hw, hwc⟩ := countP_pos_iff.mp htally
  obtain ⟨hcand, hterm⟩ := of_decide_eq_true hwc
  have hasked := h.asked w hw
  rw [hcand, hterm, reach_of_candidate hrole] at hasked
  exact hasked

lemma Inv.step (hstep : Step quorum s s') : Inv quorum s' := by
  cases hstep with
  | campaign i =>
    apply h.set (s.nodes i).reach_le
    intro v hv
    obtain rfl : 0 = v := by injection hv
    have hflying := h.flying i ((s.nodes i).term + 1)
    change 0 + s.flying i ((s.nodes i).term + 1) ≤ 1 + s.tally i ((s.nodes i).term + 1)
    omega
  | @recount i v w hrole hw =>
    apply h.set (reach_of_candidate hrole).le
    intro x hx
    obtain rfl : w = x := by injection hx
    have hflying := h.flying i (s.nodes i).term
    have hold := h.counted i v hrole
    change w + s.flying i (s.nodes i).term ≤ 1 + s.tally i (s.nodes i).term
    omega
  | @retreat i v t hrole ht =>
    apply h.set_follower
    rw [reach_of_candidate hrole]
    exact ht
  | @follow i t ht =>
    apply h.set_follower
    exact (s.nodes i).reach_le.trans (succ_le_succ ht)
  | @grant i c t hne ht hreach flying hflying =>
    have hle : (s.nodes i).reach ≤ t := (s.nodes i).reach_le.trans ht
    have hset : Inv quorum (s.set i ⟨t, .follower⟩) := h.set_follower (by omega)
    apply hset.record (v := ⟨i, c, t⟩)
    · rw [s.nodes_set_self]
      exact lt_succ_self t
    · rw [nodes_set_of_ne hne.symm]
      exact hreach
    · exact h.not_voted hle
    · exact hflying
    · exact fun hself => absurd hself hne
  | @count i v t hrole ht flying hflying =>
    have hone := hflying i t
    rw [if_pos ⟨rfl, rfl⟩] at hone
    have hlose := h.lose fun c' t' => (le_add_right _ _).trans (hflying c' t')
    apply hlose.set (reach_of_candidate hrole).le
    intro x hx
    obtain rfl : v + 1 = x := by injection hx
    obtain rfl : t = (s.nodes i).term := le_antisymm (h.term_le_of_flying hrole (by omega)) ht
    have hold := h.counted i v hrole
    change v + 1 + flying i (s.nodes i).term ≤ 1 + s.tally i (s.nodes i).term
    omega
  | lose hflying => exact h.lose hflying
  | @win i v hrole hv =>
    have hreach := reach_of_candidate hrole
    have hset : Inv quorum (s.set i ⟨(s.nodes i).term, .leader⟩) :=
      h.set (by rw [hreach]; exact le_succ _) fun v hv => by cases hv
    apply hset.record (v := ⟨i, i, (s.nodes i).term⟩)
    · rw [s.nodes_set_self]
      exact lt_succ_self _
    · rw [s.nodes_set_self]
      exact le_succ _
    · exact h.not_voted hreach.le
    · exact fun c t => le_add_right _ _
    · intro _
      have hold := h.counted i v hrole
      change quorum ≤ s.tally i (s.nodes i).term + 1
      omega

end

lemma Leads.set (h : Leads s) (ha : a.role ≠ .leader) : Leads (s.set i a) := by
  intro j hj
  by_cases hij : j = i
  · subst hij
    rw [s.nodes_set_self] at hj
    exact absurd hj ha
  · rw [nodes_set_of_ne hij] at hj ⊢
    exact h j hj

lemma Leads.step (h : Leads s) (hstep : Step quorum s s') : Leads s' := by
  cases hstep with
  | @grant i c t =>
    intro j hj
    exact mem_cons_of_mem _ (h.set (a := ⟨t, .follower⟩) (by simp) j hj)
  | lose => exact h
  | win i =>
    intro j hj
    by_cases hij : j = i
    · subst hij
      rw [record, s.nodes_set_self]
      exact mem_cons_self
    · rw [record, nodes_set_of_ne hij] at hj ⊢
      exact mem_cons_of_mem _ (h j hj)
  | _ => exact h.set (by simp)

lemma steps_win (s : State ι) (i : ι) {w : ℕ} (hrole : (s.nodes i).role = .candidate v)
    (hw : w ≤ 1 ∨ w ≤ v) (hquorum : quorum ≤ w) :
    Relation.ReflTransGen (Step quorum) s ((s.set i ⟨(s.nodes i).term, .leader⟩).record ⟨i, i, (s.nodes i).term⟩) := by
  have hnode := s.nodes_set_self i ⟨(s.nodes i).term, .candidate w⟩
  have hwin := Step.win (s.set i ⟨(s.nodes i).term, .candidate w⟩) i (v := w) (by rw [hnode]) hquorum
  rw [hnode, s.set_set] at hwin
  exact .tail (.single (.recount s i hrole hw)) hwin

lemma steps_count_win (s : State ι) (i : ι) (hrole : (s.nodes i).role = .candidate v) (ht : (s.nodes i).term ≤ t)
    (hflying : ∀ c' t', flying c' t' + (if c' = i ∧ t' = t then 1 else 0) ≤ s.flying c' t') (hquorum : quorum ≤ v + 1) :
    Relation.ReflTransGen (Step quorum) s (({ s with flying := flying }.set i ⟨(s.nodes i).term, .leader⟩).record
        ⟨i, i, (s.nodes i).term⟩) := by
  let a : State ι := { s with flying := flying }
  have hnode := a.nodes_set_self i ⟨(s.nodes i).term, .candidate (v + 1)⟩
  have hwin := Step.win (a.set i ⟨(s.nodes i).term, .candidate (v + 1)⟩) i (v := v + 1) (by rw [hnode]) hquorum
  rw [hnode, a.set_set] at hwin
  exact .tail (.single (.count s i hrole ht hflying)) hwin

lemma Step.reach_le (hstep : Step quorum s s') (j : ι) : (s.nodes j).reach ≤ (s'.nodes j).reach := by
  have hset : ∀ {i : ι} {a : Node}, (s.nodes i).reach ≤ a.reach → (s.nodes j).reach ≤ (update s.nodes i a j).reach := by
    intro i a ha
    exact (forall_update_iff s.nodes fun j a => (s.nodes j).reach ≤ a.reach).mpr ⟨ha, fun _ _ => le_rfl⟩ j
  cases hstep with
  | campaign i => exact hset (s.nodes i).reach_le
  | recount i hrole => exact hset (reach_of_candidate hrole).le
  | retreat i hrole ht => exact hset ((reach_of_candidate hrole).le.trans ht)
  | follow i ht => exact hset ((s.nodes i).reach_le.trans (succ_le_succ ht))
  | grant i c hne ht => exact hset ((s.nodes i).reach_le.trans (succ_le_succ ht.le))
  | count i hrole => exact hset (reach_of_candidate hrole).le
  | lose => exact le_rfl
  | win i hrole => exact hset ((reach_of_candidate hrole).le.trans (le_succ _))

lemma reach_le_of_steps (hsteps : Relation.ReflTransGen (Step quorum) s s') (j : ι) :
    (s.nodes j).reach ≤ (s'.nodes j).reach := by
  induction hsteps with
  | refl => exact le_rfl
  | tail _ hstep ih => exact ih.trans (hstep.reach_le j)

def State.voters (s : State ι) (c : ι) (t : ℕ) : Finset ι :=
  ((s.votes.filter fun v => v.candidate = c ∧ v.term = t).map Vote.voter).toFinset

lemma State.mem_voters {c x : ι} : x ∈ s.voters c t ↔ ∃ v ∈ s.votes, v.voter = x ∧ v.candidate = c ∧ v.term = t := by
  unfold voters
  rw [mem_toFinset, mem_map]
  constructor
  · rintro ⟨v, hv, rfl⟩
    obtain ⟨hmem, hvc⟩ := mem_filter.mp hv
    exact ⟨v, hmem, rfl, of_decide_eq_true hvc⟩
  · rintro ⟨v, hmem, rfl, hvc⟩
    exact ⟨v, mem_filter.mpr ⟨hmem, decide_eq_true hvc⟩, rfl⟩

lemma Inv.card_voters (h : Inv quorum s) (c : ι) (t : ℕ) : (s.voters c t).card = s.tally c t := by
  have hnodup : ((s.votes.filter fun v => v.candidate = c ∧ v.term = t).map Vote.voter).Nodup := by
    refine pairwise_map.mpr ((h.oneVote.filter _).imp_of_mem ?_)
    intro v w hv hw hne heq
    have hvt := (of_decide_eq_true (mem_filter.mp hv).2).2
    have hwt := (of_decide_eq_true (mem_filter.mp hw).2).2
    exact hne heq (hvt.trans hwt.symm)
  unfold voters tally
  rw [toFinset_card_of_nodup hnodup, length_map, countP_eq_length_filter]

/-- With quorums of more than half of the nodes, a term has one leader. -/
theorem Inv.leader_unique [Fintype ι] (h : Inv quorum s) (hl : Leads s)
    (hquorum : Fintype.card ι < quorum + quorum) {j : ι} (hi : (s.nodes i).role = .leader)
    (hj : (s.nodes j).role = .leader) (hterm : (s.nodes i).term = (s.nodes j).term) : i = j := by
  have hwon : ∀ k, (s.nodes k).role = .leader → quorum ≤ (s.voters k (s.nodes k).term).card := by
    intro k hk
    rw [h.card_voters]
    exact h.won _ (hl k hk) rfl
  have hci := hwon i hi
  have hcj := hwon j hj
  rw [← hterm] at hcj
  have hcard : (Finset.univ : Finset ι).card <
      (s.voters i (s.nodes i).term).card + (s.voters j (s.nodes i).term).card := by
    rw [Finset.card_univ]
    omega
  obtain ⟨x, hx⟩ := Finset.inter_nonempty_of_card_lt_card_add_card (Finset.subset_univ _) (Finset.subset_univ _) hcard
  obtain ⟨hxi, hxj⟩ := Finset.mem_inter.mp hx
  obtain ⟨v, hv, hvx, rfl, hvt⟩ := mem_voters.mp hxi
  obtain ⟨w, hw, hwx, rfl, hwt⟩ := mem_voters.mp hxj
  by_contra hne
  have hvw : v ≠ w := fun heq => hne (congrArg Vote.candidate heq)
  have hsymm : Std.Symm fun v w : Vote ι => v.voter = w.voter → v.term ≠ w.term :=
    ⟨fun a b hab heq => (hab heq.symm).symm⟩
  exact h.oneVote.forall hv hw hvw (hvx.trans hwx.symm) (hvt.trans hwt.symm)

end Protocol

end Election
