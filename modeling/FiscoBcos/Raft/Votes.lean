import FiscoBcos.Lib.Run
import FiscoBcos.Chain.Symbolic
import FiscoBcos.Raft.Turns

/-!
# The votes of a Raft node

One node with arbitrary packets, timeouts, blocks and sealer lists. A step that sets the term back voids the votes of the
terms above. The runs in which a leader is asked for a vote in a term that it has reached are left out: `handleVoteRequest`
discards the request then, but does not return.
-/

namespace FiscoBcos

open List RaftEngine RaftSent

structure RaftVote where
  term : Nat
  candidate : Nat
deriving DecidableEq

def RaftSent.granted (ret : Option RaftPacket) (sent : RaftSent) : Option RaftVote :=
  match ret, sent.response with
  | some (.voteReq req), some (.voteResp resp) =>
    if resp.voteFlag = .VOTE_RESP_GRANTED then some ⟨resp.term, req.candidate⟩ else none
  | _, _ => none

def RaftSent.candidacy (sent : RaftSent) : Option RaftVote :=
  match sent.broadcast with
  | some (.voteReq req) => some ⟨req.term, req.candidate⟩
  | _ => none

inductive VoteEntry where
  | vote (v : RaftVote)
  /-- The votes in the term `below` and above it are void. -/
  | setBack (below : Nat)
deriving DecidableEq

/-- The votes that stand, by a log of which the newest entry is the first. -/
def standing : List VoteEntry → List RaftVote
  | [] => []
  | .vote v :: log => v :: standing log
  | .setBack below :: log => (standing log).filter fun v => v.term < below

structure RaftVoter where
  engine : RaftEngine
  log : List VoteEntry := []
deriving DecidableEq

/-- What can happen to a node: a turn with any packet, syncing, another chain, a block reported, another sealer list. -/
inductive VoterEvent where
  | turn (timeout beat : Bool) (ret : Option RaftPacket)
  | syncing
  | chain (chain : RaftChain)
  | reportBlock (chain : RaftChain)
  | sealerList (sealerNum position : Nat)
deriving DecidableEq

namespace RaftVoter

/-- The first term in which votes are void after a step from `s` to `s'` that sets the term back. A candidacy in the lower
term voids the votes of that term, too. -/
def below (s s' : RaftEngine) : Option Nat :=
  if s'.term < s.term then some (if s'.state = .EN_STATE_CANDIDATE then s'.term else s'.term + 1) else none

def entries (s s' : RaftEngine) (ret : Option RaftPacket) (sent : RaftSent) : List VoteEntry :=
  (sent.candidacy.toList ++ (sent.granted ret).toList).map .vote ++ (below s s').toList.map .setBack

def step (E : Env) (r : RaftVoter) : VoterEvent → RaftVoter
  | .turn timeout beat ret =>
    let (s', sent) := r.engine.turn E timeout beat ret
    ⟨s', entries r.engine s' ret sent ++ r.log⟩
  | .syncing => { r with engine := r.engine.syncing }
  | .chain chain => { r with engine := { r.engine with chain := chain } }
  | .reportBlock chain => { r with engine := { r.engine with chain := chain }.resetConfig }
  | .sealerList sealerNum position =>
    { r with engine := { r.engine with sealerNum := sealerNum, position := position } }

/-- A leader gets a request for a term that it has reached. -/
def AskedAsLeader (s : RaftEngine) : Option RaftPacket → Prop
  | some (.voteReq req) => s.state = .EN_STATE_LEADER ∧ req.term ≤ s.term
  | _ => False

instance (s : RaftEngine) : DecidablePred (AskedAsLeader s)
  | some (.voteReq _) => inferInstanceAs (Decidable (_ ∧ _))
  | none | some (.voteResp _) | some (.heartBeat _) | some (.heartBeatResp _) => inferInstanceAs (Decidable False)

/-- The event does not ask a leader for a term that it has reached. -/
def Regular (r : RaftVoter) : VoterEvent → Prop
  | .turn _ _ ret => ¬AskedAsLeader r.engine ret
  | _ => True

instance (r : RaftVoter) (e : VoterEvent) : Decidable (Regular r e) := by
  unfold Regular
  split <;> infer_instance

end RaftVoter

open RaftVoter (AskedAsLeader)

/-- How a node comes to a lower term. -/
inductive SetBack (s : RaftEngine) (ret : Option RaftPacket) (s' : RaftEngine) : Prop where
  /-- A candidate recovers the term before its candidacy: not enough answers, or only first votes. -/
  | gaveUp (hstate : s.state = .EN_STATE_CANDIDATE) (hstate' : s'.state = .EN_STATE_FOLLOWER)
      (hterm : s'.term + 1 = s.term)
  | rejected (resp : RaftVoteResp) (hret : ret = some (.voteResp resp))
      (hflag : resp.voteFlag = .VOTE_RESP_LEADER_REJECT) (hstate : s.state = .EN_STATE_CANDIDATE)
      (hterm : resp.term < s.term)
  /-- A heartbeat of a leader later than the last one the node has seen. -/
  | heard (hb : RaftHeartBeat) (hret : ret = some (.heartBeat hb)) (hlast : s.lastLeaderTerm < hb.term)
      (hterm : hb.term < s.term)
  | overflow (hterm : s.term = 2 ^ 64 - 1) (hstate' : s'.state = .EN_STATE_CANDIDATE)

section

open RaftEngine

variable {E : Env} {s s' : RaftEngine} {ret : Option RaftPacket} {sent : RaftSent}

/-- What a turn does to votes: nothing, a vote for a candidate, or a vote for the node itself. -/
inductive Voting (s : RaftEngine) (ret : Option RaftPacket) (s' : RaftEngine) (sent : RaftSent) : Prop where
  | quiet (hgranted : sent.granted ret = none) (hcandidacy : sent.candidacy = none)
      (hterm : s'.term < s.term → SetBack s ret s')
      (hcandidate : s'.state = .EN_STATE_CANDIDATE → s'.term = s.term → s.state = .EN_STATE_CANDIDATE ∧ s'.idx = s.idx)
  | grants (candidate : Nat) (hgranted : sent.granted ret = some ⟨s'.term, candidate⟩)
      (hcandidacy : sent.candidacy = none) (hterm : s.term < s'.term) (hstate : s'.state = .EN_STATE_FOLLOWER)
  | asks (hgranted : sent.granted ret = none) (hcandidacy : sent.candidacy = some ⟨s.term, s.idx⟩)
      (hstate : s.state = .EN_STATE_CANDIDATE) (hterm : s'.term = s.term) (hidx : s'.idx = s.idx)

lemma RaftEngine.PlainSent.candidacy_eq_none (h : PlainSent sent) : sent.candidacy = none := by
  unfold candidacy
  split
  case h_1 req hreq => exact (h.broadcast _ hreq).elim
  case h_2 => rfl

lemma RaftEngine.PlainSent.granted_eq_none (h : PlainSent sent) : sent.granted ret = none := by
  unfold granted
  split
  case h_1 req resp hresp => exact if_neg (h.response _ hresp).1
  case h_2 => rfl

lemma lt_succTerm (t : Nat) : t < succTerm t ∨ (t = 2 ^ 64 - 1 ∧ succTerm t = 0) := by
  unfold succTerm
  split
  case isTrue h => exact .inr ⟨h, rfl⟩
  case isFalse => exact .inl (Nat.lt_succ_self t)

open Voting

lemma voting_campaign (hterm : s'.term = succTerm s.term) (hstate : s'.state = .EN_STATE_CANDIDATE) :
    Voting s ret s' {} := by
  have hsucc := lt_succTerm s.term
  apply quiet
  case hgranted => exact plainSent_nil.granted_eq_none
  case hcandidacy => rfl
  case hterm =>
    intro hlt
    exact .overflow (by omega) hstate
  case hcandidate =>
    intro _ heq
    omega

lemma voting_of_term_eq (hsent : PlainSent sent) (hterm : s'.term = s.term)
    (hcandidate : s'.state = .EN_STATE_CANDIDATE → s.state = .EN_STATE_CANDIDATE ∧ s'.idx = s.idx) :
    Voting s ret s' sent :=
  .quiet hsent.granted_eq_none hsent.candidacy_eq_none (fun hlt => absurd hterm hlt.ne)
    fun hstate _ => hcandidate hstate

lemma voting_asks (hresponse : sent.response = none)
    (hbroadcast : sent.broadcast = some (.voteReq (s.generateVoteReq E))) (hstate : s.state = .EN_STATE_CANDIDATE)
    (hterm : s'.term = s.term) (hidx : s'.idx = s.idx) : Voting s ret s' sent := by
  apply asks _ _ hstate hterm hidx
  · unfold granted
    rw [hresponse]
    split
    case h_1 h => cases h
    case h_2 => rfl
  · unfold candidacy
    rw [hbroadcast]
    rfl

lemma RaftEngine.Turn.voting (h : Turn E s ret s' sent) (hret : ¬AskedAsLeader s ret) : Voting s ret s' sent := by
  cases h with
  | stay hs _ _ hsent =>
    exact voting_of_term_eq hsent hs.term fun hstate => ⟨hs.state.symm.trans hstate, hs.idx⟩
  | lead _ hs | giveUp _ hs | win _ _ _ _ _ _ hs =>
    exact voting_of_term_eq plainSent_nil hs.term fun hstate => by cases hs.state.symm.trans hstate
  | ask hstate hs | winAlone hstate _ hs => exact voting_asks rfl rfl hstate hs.term hs.idx
  | campaign hs => exact voting_campaign hs.term hs.state
  | retreat hstate hs =>
    apply quiet plainSent_nil.granted_eq_none rfl
    · intro hlt
      have hterm := hs.term
      unfold predTerm at hterm
      split at hterm
      · omega
      · exact .gaveUp hstate hs.state (by omega)
    · intro hcandidate
      cases hs.state.symm.trans hcandidate
  | rejected resp hret hflag hstate hs =>
    apply quiet plainSent_nil.granted_eq_none rfl
    · intro hlt
      exact .rejected resp hret hflag hstate (hs.term ▸ hlt)
    · intro hcandidate
      cases hs.state.symm.trans hcandidate
  | grant req hreq hterm hs hbroadcast resp hresponse hflag hresp =>
    apply grants req.candidate
    case hgranted =>
      unfold granted
      rw [hreq, hresponse]
      dsimp only
      rw [if_pos hflag, hresp, hs.term]
    case hcandidacy =>
      unfold candidacy
      split
      case h_1 hreq => exact (hbroadcast _ hreq).elim
      case h_2 => rfl
    case hterm =>
      rw [hs.term]
      rcases hterm with hlt | ⟨hstate, -, -⟩
      · exact hlt
      · by_contra hle
        rw [hreq] at hret
        exact hret ⟨hstate, not_lt.mp hle⟩
    case hstate => exact hs.state
  | hear hb hret haccept hs hstate hsent =>
    apply quiet hsent.granted_eq_none hsent.candidacy_eq_none
    · intro hlt
      rw [hs.term] at hlt
      exact .heard hb hret (by omega) hlt
    intro hcandidate _
    rcases hstate with rfl | ⟨rfl, hne, -⟩
    · cases hs.state.symm.trans hcandidate
    · exact absurd (hs.state.symm.trans hcandidate) hne
  | count _ _ _ _ hstate hs => exact voting_of_term_eq plainSent_nil hs.term fun _ => ⟨hstate, hs.idx⟩

lemma term_resetConfig (s : RaftEngine) : s.resetConfig.term = s.term ∧
    (s.resetConfig = s ∨ s.resetConfig.state = .EN_STATE_FOLLOWER) := by
  by_cases h : s.sealerNum ≠ s.nodeNum ∨ s.position ≠ s.idx
  · have hs := (resetConfig_of_ne h).1
    exact ⟨hs.term, .inr hs.state⟩
  have hsame : s.resetConfig = s := by
    unfold resetConfig
    rw [if_neg h]
  exact ⟨congrArg term hsame, .inl hsame⟩

lemma workLoop_voting (hloop : s.loop = .workLoop) (hret : ¬AskedAsLeader s ret) :
    Voting s ret (s.workLoop E).1 (s.workLoop E).2 := by
  obtain ⟨hterm, hsame | hstate⟩ := term_resetConfig s
  · exact (workLoop_turn hsame hloop).voting hret
  unfold workLoop
  dsimp only
  rw [hstate]
  exact voting_of_term_eq plainSent_nil hterm fun hcandidate => nomatch hcandidate

lemma turn_voting {timeout beat : Bool} (hret : ¬AskedAsLeader s ret) :
    Voting s ret (s.turn E timeout beat ret).1 (s.turn E timeout beat ret).2 := by
  by_cases hloop : s.loop = .workLoop
  · have hturn : s.turn E timeout beat ret = s.workLoop E := by
      unfold turn
      rw [hloop]
    rw [hturn]
    exact workLoop_voting hloop hret
  · rcases turn_moves (E := E) hloop with hturn | hturn
    · exact hturn.voting hret
    · rw [hturn]
      exact voting_campaign (congrArg succTerm (term_resetConfig s).1) rfl

end

namespace RaftVoter

/-- The votes are in terms that the node has reached, one candidate for each term; a candidate has voted for itself. -/
structure Disciplined (s : RaftEngine) (votes : List RaftVote) : Prop where
  le : ∀ v ∈ votes, v.term ≤ s.term
  own : s.state = .EN_STATE_CANDIDATE → ∀ v ∈ votes, v.term = s.term → v.candidate = s.idx
  unique : ∀ v ∈ votes, ∀ w ∈ votes, v.term = w.term → v.candidate = w.candidate

namespace Disciplined

variable {s s' : RaftEngine} {votes : List RaftVote}

lemma nil (s : RaftEngine) : Disciplined s [] :=
  ⟨by simp, by simp, by simp⟩

section

variable (h : Disciplined s votes)

include h

lemma of_eq (hterm : s'.term = s.term)
    (hcandidate : s'.state = .EN_STATE_CANDIDATE → s.state = .EN_STATE_CANDIDATE ∧ s'.idx = s.idx) :
    Disciplined s' votes where
  le v hv := (h.le v hv).trans hterm.ge
  own hstate v hv heq := by
    obtain ⟨hstate', hidx⟩ := hcandidate hstate
    rw [hidx]
    exact h.own hstate' v hv (heq.trans hterm)
  unique := h.unique

lemma of_setBack (hstate : s'.state = .EN_STATE_CANDIDATE → False) :
    Disciplined s' (votes.filter fun v => v.term < s'.term + 1) where
  le _ hv := Nat.lt_succ_iff.mp (of_decide_eq_true (mem_filter.mp hv).2)
  own hcandidate := (hstate hcandidate).elim
  unique v hv w hw := h.unique v (mem_filter.mp hv).1 w (mem_filter.mp hw).1

lemma of_lt (hlt : ∀ v ∈ votes, v.term < s'.term) : Disciplined s' votes where
  le v hv := (hlt v hv).le
  own _ v hv heq := absurd heq (hlt v hv).ne
  unique := h.unique

lemma filter (p : RaftVote → Bool) : Disciplined s (votes.filter p) where
  le v hv := h.le v (mem_filter.mp hv).1
  own hstate v hv := h.own hstate v (mem_filter.mp hv).1
  unique v hv w hw := h.unique v (mem_filter.mp hv).1 w (mem_filter.mp hw).1

lemma cons {candidate : Nat} (hlt : ∀ v ∈ votes, v.term < s'.term)
    (hstate : s'.state = .EN_STATE_FOLLOWER) : Disciplined s' (⟨s'.term, candidate⟩ :: votes) where
  le v hv := by
    rcases mem_cons.mp hv with rfl | hv
    · exact le_rfl
    · exact (hlt v hv).le
  own hcandidate := by cases hstate.symm.trans hcandidate
  unique v hv w hw heq := by
    rcases mem_cons.mp hv with rfl | hv
    · rcases mem_cons.mp hw with rfl | hw
      · rfl
      · exact absurd heq.symm (hlt w hw).ne
    · rcases mem_cons.mp hw with rfl | hw
      · exact absurd heq (hlt v hv).ne
      · exact h.unique v hv w hw heq

lemma cons_own (hstate : s.state = .EN_STATE_CANDIDATE) : Disciplined s (⟨s.term, s.idx⟩ :: votes) where
  le v hv := by
    rcases mem_cons.mp hv with rfl | hv
    · exact le_rfl
    · exact h.le v hv
  own _ v hv heq := by
    rcases mem_cons.mp hv with rfl | hv
    · rfl
    · exact h.own hstate v hv heq
  unique v hv w hw heq := by
    rcases mem_cons.mp hv with rfl | hv
    · rcases mem_cons.mp hw with rfl | hw
      · rfl
      · exact (h.own hstate w hw heq.symm).symm
    · rcases mem_cons.mp hw with rfl | hw
      · exact h.own hstate v hv heq
      · exact h.unique v hv w hw heq

end

end Disciplined

variable {E : Env} {s s' : RaftEngine} {ret : Option RaftPacket} {sent : RaftSent} {log : List VoteEntry}

lemma standing_entries : standing (entries s s' ret sent ++ log) =
    sent.candidacy.toList ++ (sent.granted ret).toList ++ (below s s').elim (standing log) fun b =>
        (standing log).filter fun v => v.term < b := by
  unfold entries
  cases sent.candidacy <;> cases sent.granted ret <;> cases below s s' <;> rfl

lemma Disciplined.of_voting (h : Disciplined s (standing log)) (hvoting : Voting s ret s' sent) :
    Disciplined s' (standing (entries s s' ret sent ++ log)) := by
  rw [standing_entries]
  cases hvoting with
  | quiet hgranted hcandidacy hterm hcandidate =>
    rw [hgranted, hcandidacy]
    unfold below
    by_cases hlt : s'.term < s.term
    · rw [if_pos hlt]
      by_cases hstate : s'.state = .EN_STATE_CANDIDATE
      · rw [if_pos hstate]
        exact (h.filter _).of_lt fun v hv => of_decide_eq_true (mem_filter.mp hv).2
      · rw [if_neg hstate]
        exact h.of_setBack hstate
    · rw [if_neg hlt]
      rcases (not_lt.mp hlt).lt_or_eq with hgt | heq
      · exact h.of_lt fun v hv => (h.le v hv).trans_lt hgt
      · exact h.of_eq heq.symm fun hstate => hcandidate hstate heq.symm
  | grants candidate hgranted hcandidacy hterm hstate =>
    rw [hgranted, hcandidacy]
    unfold below
    rw [if_neg hterm.not_gt]
    exact h.cons (fun v hv => (h.le v hv).trans_lt hterm) hstate
  | asks hgranted hcandidacy hstate hterm hidx =>
    rw [hgranted, hcandidacy]
    unfold below
    rw [if_neg hterm.not_lt]
    exact (h.cons_own hstate).of_eq hterm fun _ => ⟨hstate, hidx⟩

lemma disciplined_step {e : VoterEvent} {r : RaftVoter} (he : Regular r e) (h : Disciplined r.engine (standing r.log)) :
    Disciplined (step E r e).engine (standing (step E r e).log) := by
  cases e with
  | turn => exact h.of_voting (turn_voting he)
  | syncing =>
    apply h.of_eq
    · unfold step syncing
      dsimp only
      split <;> rfl
    · unfold step syncing
      dsimp only
      split <;> exact fun hstate => ⟨hstate, rfl⟩
  | reportBlock chain =>
    obtain ⟨hterm, hsame | hstate⟩ := term_resetConfig { r.engine with chain := chain }
    · apply h.of_eq hterm
      intro hstate
      rw [hsame] at hstate
      have hidx := congrArg idx hsame
      exact ⟨hstate, hidx⟩
    · exact h.of_eq hterm fun hcandidate => by cases hstate.symm.trans hcandidate
  | _ => exact h.of_eq rfl fun hstate => ⟨hstate, rfl⟩

lemma mem_standing {v : RaftVote} (hlog : ∀ b, .setBack b ∉ log) (hv : .vote v ∈ log) : v ∈ standing log := by
  induction log with
  | nil => cases hv
  | cons entry log ih =>
    cases entry with
    | vote =>
      rcases mem_cons.mp hv with heq | hv
      · cases heq
        exact mem_cons_self
      · exact mem_cons_of_mem _ (ih (fun b hb => hlog b (mem_cons_of_mem _ hb)) hv)
    | setBack b => exact absurd mem_cons_self (hlog b)

/-- In every regular run the votes that stand are in terms that the node has reached, one candidate for each term. All votes
stand until the term is set back, which happens in the ways of `SetBack` only, and each vote is for a higher term. -/
theorem standing_votes (E : Env) (s : RaftEngine) (es : List VoterEvent)
    (hes : Machine.Along (step E) Regular ⟨s, []⟩ es) :
    let r := Machine.run (step E) ⟨s, []⟩ es
    (∀ v ∈ standing r.log, v.term ≤ r.engine.term) ∧
      (∀ v ∈ standing r.log, ∀ w ∈ standing r.log, v.term = w.term → v.candidate = w.candidate) ∧
      ((∀ b, .setBack b ∉ r.log) → ∀ v, .vote v ∈ r.log → v ∈ standing r.log) ∧
      ∀ timeout beat ret, Regular r (.turn timeout beat ret) → let s' := (r.engine.turn E timeout beat ret).1
        let sent := (r.engine.turn E timeout beat ret).2
        (s'.term < r.engine.term → SetBack r.engine ret s') ∧ ∀ v ∈ sent.granted ret, r.engine.term < v.term := by
  intro r
  have h : Disciplined r.engine (standing r.log) :=
    Machine.invariant_run (fun r : RaftVoter => Disciplined r.engine (standing r.log))
      (fun _ _ => disciplined_step) (.nil s) hes
  refine ⟨h.le, h.unique, fun hlog v => mem_standing hlog, fun timeout beat ret hret => ?_⟩
  intro s' sent
  cases turn_voting hret with
  | quiet hgranted hcandidacy hterm =>
    refine ⟨hterm, fun v hv => ?_⟩
    rw [hgranted] at hv
    cases hv
  | grants candidate hgranted hcandidacy hterm =>
    refine ⟨fun hlt => absurd hlt hterm.not_gt, fun v hv => ?_⟩
    rw [hgranted] at hv
    cases hv
    exact hterm
  | asks hgranted hcandidacy hstate hterm =>
    refine ⟨fun hlt => absurd hterm hlt.ne, fun v hv => ?_⟩
    rw [hgranted] at hv
    cases hv

def nodeZero : RaftVoter where
  engine := resetConfig { sealerNum := 3, position := 0 }

def campaignOne : List VoterEvent :=
  [.turn false false none, .turn true false none, .turn false false none]

def requestOne : VoterEvent :=
  .turn false false (some (.voteReq { term := 1, candidate := 1, lastLeaderTerm := 1 }))

def gaveUp : List VoterEvent :=
  campaignOne ++ [.turn true false none]

/-- After it has given up term 1 the node grants term 1 to node 1; this vote stands and its own does not. -/
theorem standing_votes_of_gaveUp :
    let r := Machine.run (step Symbolic.env) nodeZero (gaveUp ++ [.turn false false none, requestOne])
    (∀ v ∈ standing r.log, v.term ≤ r.engine.term) ∧ standing r.log = [⟨1, 1⟩] :=
  ⟨(standing_votes Symbolic.env nodeZero.engine _ (by decide +kernel)).1, by decide +kernel⟩

/-- (a) The node votes for itself in term 1, gives up, is back in term 0 and grants term 1 to node 1. (b) It wins term 1
and grants term 1 to node 1 at the second request. -/
theorem not_standing_votes :
    let run := Machine.run (step Symbolic.env) nodeZero
    let won := campaignOne ++ [.turn false false (some (.voteResp { term := 1, voteFlag := .VOTE_RESP_GRANTED })),
        .turn false false none, requestOne]
    ((run gaveUp).engine.term = 0 ∧ .vote ⟨1, 0⟩ ∈ (run gaveUp).log ∧
      (run (gaveUp ++ [.turn false false none, requestOne])).log = [.vote ⟨1, 1⟩, .setBack 1, .vote ⟨1, 0⟩]) ∧
      ((run won).engine.state = .EN_STATE_LEADER ∧ (run won).engine.term = 1 ∧
        (run (won ++ [requestOne])).log = [.vote ⟨1, 1⟩, .vote ⟨1, 0⟩]) := by
  decide +kernel

end RaftVoter

end FiscoBcos
