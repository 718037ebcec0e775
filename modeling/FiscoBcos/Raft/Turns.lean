import FiscoBcos.Raft.Engine

/-!
# What a turn of the Raft engine can do

`turn_cases` says once what the loops do to term, role and last leader term of a node whose
configuration is settled; everything about elections is derived from it.
-/

namespace FiscoBcos

variable {ret : Option RaftPacket} {c : RaftEngine} {timeout : Bool} {v : VoteState}

namespace RaftEngine

variable {E : Env} {s a b : RaftEngine}

structure Settled (n : Nat) (s : RaftEngine) : Prop where
  sealerNum : s.sealerNum = n
  nodeNum : s.nodeNum = n
  idx : s.position = s.idx
  f : s.f = (n - 1) / 2

def votes (s : RaftEngine) : Nat :=
  match s.loop with
  | .runAsCandidate v => v.vote
  | _ => 0

structure Becomes (a b : RaftEngine) (term : Nat) (state : RaftRole) (lastLeaderTerm : Nat) : Prop where
  sealerNum : b.sealerNum = a.sealerNum
  position : b.position = a.position
  idx : b.idx = a.idx
  nodeNum : b.nodeNum = a.nodeNum
  f : b.f = a.f
  term : b.term = term
  state : b.state = state
  lastLeaderTerm : b.lastLeaderTerm = lastLeaderTerm

def Plain : RaftPacket → Prop
  | .voteReq _ => False
  | .voteResp r => r.voteFlag ≠ .VOTE_RESP_GRANTED ∧ r.voteFlag ≠ .VOTE_RESP_LEADER_REJECT
  | _ => True

structure PlainSent (sent : RaftSent) : Prop where
  broadcast : ∀ p, sent.broadcast = some p → Plain p
  response : ∀ p, sent.response = some p → Plain p

def Recent (s : RaftEngine) (resp : RaftVoteResp) : Prop :=
  ¬resp.term < predTerm s.term

inductive Turn (E : Env) (s : RaftEngine) (ret : Option RaftPacket) (s' : RaftEngine) :
    RaftSent → Prop where
  | stay {sent : RaftSent} (hs : Becomes s s' s.term s.state s.lastLeaderTerm)
      (hvotes : s'.votes ≤ s.votes) (hloop : s'.loop = .runAsLeader → s.loop = .runAsLeader)
      (hsent : PlainSent sent) : Turn E s ret s' sent
  | lead (hstate : s.state = .EN_STATE_LEADER) (hs : Becomes s s' s.term .EN_STATE_LEADER s.term) : Turn E s ret s' {}
  | ask (hstate : s.state = .EN_STATE_CANDIDATE)
      (hs : Becomes s s' s.term .EN_STATE_CANDIDATE s.lastLeaderTerm) (hvotes : s'.votes = 1) :
      Turn E s ret s' { broadcast := some (.voteReq (s.generateVoteReq E)) }
  | winAlone (hstate : s.state = .EN_STATE_CANDIDATE) (hquorum : s.nodeNum - s.f ≤ 1)
      (hs : Becomes s s' s.term .EN_STATE_LEADER s.lastLeaderTerm) (hloop : s'.loop = .workLoop) :
      Turn E s ret s' { broadcast := some (.voteReq (s.generateVoteReq E)) }
  | campaign (hs : Becomes s s' (succTerm s.term) .EN_STATE_CANDIDATE s.lastLeaderTerm)
      (hvotes : s'.votes = 0) (hloop : s'.loop = .workLoop) : Turn E s ret s' {}
  | retreat (hstate : s.state = .EN_STATE_CANDIDATE)
      (hs : Becomes s s' (predTerm s.term) .EN_STATE_FOLLOWER s.lastLeaderTerm) : Turn E s ret s' {}
  | giveUp (hstate : s.state = .EN_STATE_CANDIDATE)
      (hs : Becomes s s' s.term .EN_STATE_FOLLOWER s.lastLeaderTerm) : Turn E s ret s' {}
  | rejected (resp : RaftVoteResp) (hret : ret = some (.voteResp resp))
      (hflag : resp.voteFlag = .VOTE_RESP_LEADER_REJECT) (hstate : s.state = .EN_STATE_CANDIDATE)
      (hs : Becomes s s' resp.term .EN_STATE_FOLLOWER resp.lastLeaderTerm) : Turn E s ret s' {}
  | grant (req : RaftVoteReq) (hret : ret = some (.voteReq req)) {sent : RaftSent}
      (hterm : s.term < req.term ∨ (s.state = .EN_STATE_LEADER ∧ s.loop = .runAsLeader ∧
        s.lastLeaderTerm ≤ req.lastLeaderTerm))
      (hs : Becomes s s' req.term .EN_STATE_FOLLOWER s.lastLeaderTerm)
      (hbroadcast : ∀ p, sent.broadcast = some p → Plain p) (resp : RaftVoteResp)
      (hresponse : sent.response = some (.voteResp resp))
      (hflag : resp.voteFlag = .VOTE_RESP_GRANTED) (hresp : resp.term = req.term) :
      Turn E s ret s' sent
  | hear (hb : RaftHeartBeat) (hret : ret = some (.heartBeat hb)) {sent : RaftSent}
      (haccept : ¬(hb.term < s.term ∧ hb.term ≤ s.lastLeaderTerm)) {state : RaftRole}
      (hs : Becomes s s' hb.term state hb.term)
      (hstate : state = .EN_STATE_FOLLOWER ∨ (state = s.state ∧ s.state ≠ .EN_STATE_CANDIDATE ∧ hb.term = s.term))
      (hsent : PlainSent sent) : Turn E s ret s' sent
  | count (resp : RaftVoteResp) (hret : ret = some (.voteResp resp))
      (hflag : resp.voteFlag = .VOTE_RESP_GRANTED) (hrecent : s.Recent resp)
      (hstate : s.state = .EN_STATE_CANDIDATE)
      (hs : Becomes s s' s.term .EN_STATE_CANDIDATE s.lastLeaderTerm)
      (hvotes : s'.votes = s.votes + 1) : Turn E s ret s' {}
  | win (resp : RaftVoteResp) (hret : ret = some (.voteResp resp))
      (hflag : resp.voteFlag = .VOTE_RESP_GRANTED) (hrecent : s.Recent resp)
      (hstate : s.state = .EN_STATE_CANDIDATE) (hquorum : s.nodeNum - s.f ≤ s.votes + 1)
      (hs : Becomes s s' s.term .EN_STATE_LEADER s.lastLeaderTerm) (hloop : s'.loop = .workLoop) :
      Turn E s ret s' {}

section

lemma Becomes.refl (s : RaftEngine) : Becomes s s s.term s.state s.lastLeaderTerm :=
  ⟨rfl, rfl, rfl, rfl, rfl, rfl, rfl, rfl⟩

lemma plainSent_nil : PlainSent {} :=
  ⟨fun _ hp => (nomatch hp), fun _ hp => (nomatch hp)⟩

lemma resetConfig_eq {n : Nat} (h : Settled n s) : s.resetConfig = s := by
  unfold resetConfig
  rw [if_neg]
  rintro (hne | hne)
  · exact hne (h.sealerNum.trans h.nodeNum.symm)
  · exact hne h.idx

lemma resetConfig_of_ne (h : s.sealerNum ≠ s.nodeNum ∨ s.position ≠ s.idx) :
    Becomes { s with nodeNum := s.sealerNum % 2 ^ 16, idx := s.position % 2 ^ 16, f := (s.sealerNum % 2 ^ 16 - 1) / 2 }
      s.resetConfig s.term .EN_STATE_FOLLOWER s.lastLeaderTerm ∧ s.resetConfig.loop = s.loop := by
  unfold resetConfig switchToFollower
  rw [if_pos h]
  dsimp only
  split <;> exact ⟨⟨rfl, rfl, rfl, rfl, rfl, rfl, rfl, rfl⟩, rfl⟩

variable {l t : Nat} {r : RaftRole}

lemma Becomes.leave (h : Becomes a b t r l) : Becomes a b.leave t r l :=
  ⟨h.sealerNum, h.position, h.idx, h.nodeNum, h.f, h.term, h.state, h.lastLeaderTerm⟩

lemma Becomes.switchToFollower (h : Becomes a b t r l) (leader : Nat) :
    Becomes a (b.switchToFollower leader) t .EN_STATE_FOLLOWER l := by
  obtain ⟨h1, h2, h3, h4, h5, h6, h7, h8⟩ := h
  unfold RaftEngine.switchToFollower
  dsimp only
  split <;> exact ⟨h1, h2, h3, h4, h5, h6, rfl, h8⟩

structure Same (a b : RaftEngine) : Prop extends Becomes a b a.term a.state a.lastLeaderTerm where
  loop : b.loop = a.loop

lemma Same.refl (s : RaftEngine) : Same s s :=
  ⟨⟨rfl, rfl, rfl, rfl, rfl, rfl, rfl, rfl⟩, rfl⟩

lemma Becomes.trans {t' l' : Nat} {r' : RaftRole} (hab : Becomes a b t r l)
    (hbc : Becomes b c t' r' l') : Becomes a c t' r' l' where
  sealerNum := hbc.sealerNum.trans hab.sealerNum
  position := hbc.position.trans hab.position
  idx := hbc.idx.trans hab.idx
  nodeNum := hbc.nodeNum.trans hab.nodeNum
  f := hbc.f.trans hab.f
  term := hbc.term
  state := hbc.state
  lastLeaderTerm := hbc.lastLeaderTerm

lemma Same.trans (hab : Same a b) (hbc : Same b c) : Same a c := by
  refine ⟨?_, hbc.loop.trans hab.loop⟩
  have h := hab.toBecomes.trans hbc.toBecomes
  rwa [hab.term, hab.state, hab.lastLeaderTerm] at h

lemma Same.votes (h : Same a b) : b.votes = a.votes := by
  unfold RaftEngine.votes
  rw [h.loop]

lemma Same.stay (h : Same a b) {sent : RaftSent} (hsent : PlainSent sent) : Turn E a ret b sent :=
  .stay h.toBecomes h.votes.le (fun hl => h.loop ▸ hl) hsent

lemma clearFirstVoteCache_same : Same s s.clearFirstVoteCache := by
  unfold clearFirstVoteCache
  split <;> exact ⟨⟨rfl, rfl, rfl, rfl, rfl, rfl, rfl, rfl⟩, rfl⟩

lemma broadcastHeartbeat_spec (beat : Bool) (s : RaftEngine) : Same s (s.broadcastHeartbeat E beat).1 ∧
      ∀ p, (s.broadcastHeartbeat E beat).2 = some p → Plain p := by
  unfold broadcastHeartbeat
  split
  · refine ⟨clearFirstVoteCache_same, fun p hp => ?_⟩
    cases hp
    trivial
  · exact ⟨Same.refl s, fun p hp => (nomatch hp)⟩

lemma switchToCandidate_turn {n : Nat} (h : Settled n s) : Turn E s ret s.switchToCandidate.leave {} := by
  unfold switchToCandidate
  rw [resetConfig_eq h]
  exact .campaign ⟨rfl, rfl, rfl, rfl, rfl, rfl, rfl, rfl⟩ rfl rfl

lemma leave_turn : Turn E s ret s.leave {} :=
  .stay ⟨rfl, rfl, rfl, rfl, rfl, rfl, rfl, rfl⟩ (Nat.zero_le _) (fun h => by cases h) plainSent_nil

end

section

/-- A vote is granted for a higher term, or by a leader that has seen no later leader than the candidate; every other
answer leaves the node as it was. -/
theorem handleVoteRequest_spec (req : RaftVoteReq) (s : RaftEngine) :
    let r := s.handleVoteRequest E req
    (r.2.2 = false ∧ Same s r.1 ∧ Plain (.voteResp r.2.1)) ∨
      (r.2.2 = true ∧ Becomes s r.1 req.term s.state s.lastLeaderTerm ∧
        (s.term < req.term ∨ (s.state = .EN_STATE_LEADER ∧ s.lastLeaderTerm ≤ req.lastLeaderTerm)) ∧
        r.2.1.voteFlag = .VOTE_RESP_GRANTED ∧ r.2.1.term = req.term) := by
  have hplain : ∀ {r : RaftVoteResp}, r.voteFlag ≠ .VOTE_RESP_GRANTED →
      r.voteFlag ≠ .VOTE_RESP_LEADER_REJECT → Plain (.voteResp r) := fun h h' => ⟨h, h'⟩
  unfold handleVoteRequest
  by_cases hterm : req.term ≤ s.term ∧ s.state ≠ .EN_STATE_LEADER
  · rw [if_pos hterm]
    split <;> exact .inl ⟨rfl, Same.refl s, hplain (by simp) (by simp)⟩
  rw [if_neg hterm]
  by_cases hlast : req.lastLeaderTerm < s.lastLeaderTerm
  · rw [if_pos hlast]
    exact .inl ⟨rfl, Same.refl s, hplain (by simp) (by simp)⟩
  rw [if_neg hlast]
  by_cases hnumber : req.lastBlockNumber < s.currentBlockNumber
  · rw [if_pos hnumber]
    exact .inl ⟨rfl, Same.refl s, hplain (by simp) (by simp)⟩
  rw [if_neg hnumber]
  by_cases hfirst : s.firstVote = InvalidIndex
  · rw [if_pos hfirst]
    exact .inl ⟨rfl, ⟨⟨rfl, rfl, rfl, rfl, rfl, rfl, rfl, rfl⟩, rfl⟩, hplain (by simp) (by simp)⟩
  rw [if_neg hfirst]
  refine .inr ⟨rfl, ⟨rfl, rfl, rfl, rfl, rfl, rfl, rfl, rfl⟩, ?_, rfl, rfl⟩
  by_cases hleader : s.state = .EN_STATE_LEADER
  · exact .inr ⟨hleader, not_lt.mp hlast⟩
  · exact .inl (Nat.lt_of_not_le fun hle => hterm ⟨hle, hleader⟩)

variable {br : Option RaftPacket}

lemma onVoteReq_turn (hsame : Same s a) (hloop : s.state = .EN_STATE_LEADER → s.loop = .runAsLeader)
    (hbr : ∀ p, br = some p → Plain p) (req : RaftVoteReq) :
    Turn E s (some (.voteReq req)) (a.onVoteReq E br req).1 (a.onVoteReq E br req).2 := by
  have hspec := handleVoteRequest_spec (E := E) req a
  unfold onVoteReq
  generalize a.handleVoteRequest E req = r at hspec ⊢
  obtain ⟨s', resp, granted⟩ := r
  rcases hspec with ⟨rfl, hs, hplain⟩ | ⟨rfl, hs, hterm, hflag, hresp⟩
  · refine (hsame.trans hs).stay ⟨hbr, fun p hp => ?_⟩
    cases hp
    exact hplain
  rw [hsame.lastLeaderTerm] at hs
  rw [hsame.term, hsame.state, hsame.lastLeaderTerm] at hterm
  refine .grant req rfl (hterm.imp_right fun h => ⟨h.1, hloop h.1, h.2⟩) ?_ hbr resp rfl hflag hresp
  exact ((hsame.toBecomes.trans hs).switchToFollower _).leave

end

section

/-- A heartbeat that is not turned away leaves the node at its term; a candidate, and a node that was at another term,
steps down. -/
theorem heartbeatTerm_spec (hb : RaftHeartBeat) (s : RaftEngine)
    (haccept : ¬(hb.term < s.term ∧ hb.term ≤ s.lastLeaderTerm)) :
    let r := s.heartbeatTerm hb
    Becomes s r.1 hb.term s.state s.lastLeaderTerm ∧ r.1.loop = s.loop ∧
      (r.2 = false → s.state ≠ .EN_STATE_CANDIDATE ∧ hb.term = s.term) := by
  unfold heartbeatTerm
  by_cases hlast : hb.term > s.lastLeaderTerm
  · simp only [if_pos hlast, gt_iff_lt, lt_self_iff_false, if_false, ge_iff_le, le_refl, and_true]
    split <;> exact ⟨⟨rfl, rfl, rfl, rfl, rfl, rfl, rfl, rfl⟩, rfl, fun h => by simp at h⟩
  by_cases hterm : hb.term > s.term
  · simp only [if_neg hlast, if_pos hterm, ge_iff_le, le_refl, and_true]
    split <;> exact ⟨⟨rfl, rfl, rfl, rfl, rfl, rfl, rfl, rfl⟩, rfl, fun h => by simp at h⟩
  have heq : hb.term = s.term := by omega
  simp only [if_neg hlast, if_neg hterm]
  split
  · exact ⟨⟨rfl, rfl, rfl, rfl, rfl, rfl, rfl, rfl⟩, rfl, fun h => by simp at h⟩
  · rename_i hcand
    refine ⟨⟨rfl, rfl, rfl, rfl, rfl, heq.symm, rfl, rfl⟩, rfl, fun _ => ⟨fun hstate => ?_, heq⟩⟩
    exact hcand ⟨hstate, heq.ge⟩

lemma handleHeartbeat_spec {hb : RaftHeartBeat} {s' : RaftEngine} {resp : Option RaftHeartBeatResp}
    {stepDown : Bool} (h : s.handleHeartbeat E hb = some (s', resp, stepDown)) : (s' = s ∧ stepDown = false) ∨
      (¬(hb.term < s.term ∧ hb.term ≤ s.lastLeaderTerm) ∧ Becomes s s' hb.term s.state hb.term ∧
        s'.loop = s.loop ∧ (stepDown = false → s.state ≠ .EN_STATE_CANDIDATE ∧ hb.term = s.term)) := by
  unfold handleHeartbeat at h
  by_cases haccept : hb.term < s.term ∧ hb.term ≤ s.lastLeaderTerm
  · rw [if_pos haccept] at h
    cases h
    exact .inl ⟨rfl, rfl⟩
  rw [if_neg haccept] at h
  split at h
  · cases h
    exact .inl ⟨rfl, rfl⟩
  · cases h
  · rename_i chain hash _
    have hspec := heartbeatTerm_spec hb { s with chain := chain } haccept
    cases h
    obtain ⟨hs, hloop, hdown⟩ := hspec
    obtain ⟨hclear, hclearLoop⟩ := clearFirstVoteCache_same
    have hs' := hs.trans hclear
    refine .inr ⟨haccept, ?_, hclearLoop.trans hloop, hdown⟩
    exact ⟨hs'.sealerNum, hs'.position, hs'.idx, hs'.nodeNum, hs'.f, hs'.term.trans hs.term,
      hs'.state.trans hs.state, rfl⟩

variable {br : Option RaftPacket}

lemma plainSent_heartBeatResp (hbr : ∀ p, br = some p → Plain p) (resp : Option RaftHeartBeatResp) :
    PlainSent ⟨br, resp.map .heartBeatResp⟩ := by
  refine ⟨hbr, fun p hp => ?_⟩
  obtain ⟨r, -, rfl⟩ := Option.map_eq_some_iff.mp hp
  trivial

lemma stopped_turn (hsame : Same s a) (hbr : ∀ p, br = some p → Plain p) (ret : Option RaftPacket) :
    Turn E s ret { a with loop := .stopped } ⟨br, none⟩ := by
  refine .stay (hsame.toBecomes.trans ⟨rfl, rfl, rfl, rfl, rfl, ?_, ?_, ?_⟩) (Nat.zero_le _)
    (fun h => (nomatch h)) ⟨hbr, fun p hp => (nomatch hp)⟩
  · exact hsame.term
  · exact hsame.state
  · exact hsame.lastLeaderTerm

lemma onHeartBeat_turn (hsame : Same s a) (hbr : ∀ p, br = some p → Plain p) (hb : RaftHeartBeat) :
    Turn E s (some (.heartBeat hb)) (a.onHeartBeat E br hb).1 (a.onHeartBeat E br hb).2 := by
  unfold onHeartBeat
  split
  · exact stopped_turn hsame hbr _
  rename_i s' resp stepDown heq
  have hsent := plainSent_heartBeatResp hbr resp
  rcases handleHeartbeat_spec heq with ⟨rfl, rfl⟩ | ⟨haccept, hs, hloop, hdown⟩
  · exact hsame.stay hsent
  rw [hsame.term, hsame.lastLeaderTerm] at haccept
  rw [hsame.term, hsame.state] at hdown
  cases stepDown with
  | true =>
    exact .hear hb rfl haccept ((hsame.toBecomes.trans hs).switchToFollower _).leave (.inl rfl) hsent
  | false =>
    exact .hear hb rfl haccept (hsame.toBecomes.trans hs) (.inr ⟨hsame.state, hdown rfl⟩) hsent

end

section

variable {n : Nat}

def Moves (E : Env) (s : RaftEngine) (ret : Option RaftPacket) (r : RaftEngine × RaftSent) : Prop :=
  Turn E s ret r.1 r.2 ∨ r = (s.switchToCandidate.leave, {})

lemma runAsLeaderImp_moves (hloop : s.loop = .runAsLeader) (timeout beat : Bool)
    (ret : Option RaftPacket) : Moves E s ret (s.runAsLeaderImp E timeout beat ret) := by
  unfold runAsLeaderImp
  by_cases hstate : s.state ≠ .EN_STATE_LEADER
  · rw [if_pos hstate]
    exact .inl leave_turn
  rw [if_neg hstate]
  by_cases hnum : s.nodeNum > 1
  · rw [if_pos hnum]
    cases timeout with
    | true => exact .inr rfl
    | false =>
      obtain ⟨hsame, hbr⟩ := broadcastHeartbeat_spec (E := E) beat s
      simp
      apply Or.inl
      split
      · exact onVoteReq_turn hsame (fun _ => hloop) hbr _
      · exact onHeartBeat_turn hsame hbr _
      · exact hsame.stay ⟨hbr, fun p hp => (nomatch hp)⟩
  · rw [if_neg hnum]
    exact .inl ((Same.refl s).stay plainSent_nil)

lemma onVoteResp_turn (hstate : s.state = .EN_STATE_CANDIDATE) (hloop : s.loop = .runAsCandidate v)
    (resp : RaftVoteResp) : Turn E s (some (.voteResp resp)) (s.onVoteResp v resp) {} := by
  have hvotes : s.votes = v.vote := by
    unfold votes
    rw [hloop]
  have hsame : ∀ {w : VoteState}, w.vote = v.vote →
      Turn E s (some (.voteResp resp)) { s with loop := .runAsCandidate w } {} := fun hw =>
    .stay ⟨rfl, rfl, rfl, rfl, rfl, rfl, rfl, rfl⟩ (by rw [hvotes]; exact hw.le) (fun hl => (nomatch hl)) plainSent_nil
  have hgiveUp : Turn E s (some (.voteResp resp)) (s.switchToFollower InvalidIndex).leave {} :=
    .giveUp hstate ((Becomes.refl s).switchToFollower _).leave
  unfold onVoteResp handleVoteResponse
  by_cases hrecent : resp.term < predTerm s.term
  · rw [if_pos hrecent]
    exact hsame rfl
  rw [if_neg hrecent]
  cases hflag : resp.voteFlag with
  | VOTE_RESP_REJECT =>
    dsimp only
    cases s.isMajorityVote (v.unVote + 1) with
    | true => exact hgiveUp
    | false => exact hsame rfl
  | VOTE_RESP_LEADER_REJECT =>
    refine .rejected resp rfl hflag hstate (Becomes.switchToFollower (r := s.state) ?_ _).leave
    exact ⟨rfl, rfl, rfl, rfl, rfl, rfl, rfl, rfl⟩
  | VOTE_RESP_LASTTERM_ERROR =>
    dsimp only
    cases s.isMajorityVote (v.lastTermErr + 1) with
    | true => exact hgiveUp
    | false => exact hsame rfl
  | VOTE_RESP_FIRST_VOTE =>
    dsimp only
    cases s.isMajorityVote (v.firstVote + 1) with
    | true =>
      refine .retreat hstate (Becomes.switchToFollower (r := s.state) ?_ _).leave
      exact ⟨rfl, rfl, rfl, rfl, rfl, rfl, rfl, rfl⟩
    | false => exact hsame rfl
  | VOTE_RESP_GRANTED =>
    dsimp only
    cases hmajority : s.isMajorityVote (v.vote + 1) with
    | true =>
      refine .win resp rfl hflag hrecent hstate ?_ ⟨rfl, rfl, rfl, rfl, rfl, rfl, rfl, rfl⟩ rfl
      rw [hvotes]
      exact of_decide_eq_true hmajority
    | false =>
      exact .count resp rfl hflag hrecent hstate ⟨rfl, rfl, rfl, rfl, rfl, rfl, hstate, rfl⟩ (by rw [hvotes]; rfl)
  | _ => exact hsame rfl

lemma runAsCandidateImp_moves (hloop : s.loop = .runAsCandidate v) (timeout : Bool)
    (ret : Option RaftPacket) : Moves E s ret (s.runAsCandidateImp E timeout ret v) := by
  have hnone : ∀ p, (none : Option RaftPacket) = some p → Plain p := fun p hp => (nomatch hp)
  unfold runAsCandidateImp
  by_cases hstate : s.state ≠ .EN_STATE_CANDIDATE
  · rw [if_pos hstate]
    exact .inl leave_turn
  have hcand : s.state = .EN_STATE_CANDIDATE := not_not.mp hstate
  rw [if_neg hstate]
  cases timeout with
  | true =>
    rw [if_pos rfl]
    split
    · exact .inr rfl
    · refine .inl (.retreat hcand (Becomes.switchToFollower (r := s.state) ?_ _).leave)
      exact ⟨rfl, rfl, rfl, rfl, rfl, rfl, rfl, rfl⟩
  | false =>
    simp
    apply Or.inl
    split
    · exact onVoteReq_turn (Same.refl s) (fun hl => by rw [hcand] at hl; cases hl) hnone _
    · exact onVoteResp_turn hcand hloop _
    · exact onHeartBeat_turn (Same.refl s) hnone _
    · exact (Same.refl s).stay plainSent_nil

lemma runAsFollowerImp_moves : Moves E s ret (s.runAsFollowerImp E timeout ret) := by
  have hnone : ∀ p, (none : Option RaftPacket) = some p → Plain p := fun p hp => (nomatch hp)
  unfold runAsFollowerImp
  by_cases hstate : s.state ≠ .EN_STATE_FOLLOWER
  · rw [if_pos hstate]
    exact .inl leave_turn
  have hfollower : s.state = .EN_STATE_FOLLOWER := not_not.mp hstate
  rw [if_neg hstate]
  cases timeout with
  | true => exact .inr rfl
  | false =>
    simp
    apply Or.inl
    split
    · rename_i req
      have hspec := handleVoteRequest_spec (E := E) req s
      generalize s.handleVoteRequest E req = r at hspec ⊢
      obtain ⟨s', resp, granted⟩ := r
      rcases hspec with ⟨rfl, hs, hplain⟩ | ⟨rfl, hs, hterm, hflag, hresp⟩
      · refine hs.stay ⟨hnone, fun p hp => ?_⟩
        cases hp
        exact hplain
      refine .grant req rfl (.inl ?_) ⟨hs.sealerNum, hs.position, hs.idx, hs.nodeNum, hs.f, hs.term,
        hs.state.trans hfollower, hs.lastLeaderTerm⟩ hnone resp rfl hflag hresp
      rcases hterm with hlt | ⟨hleader, -⟩
      · exact hlt
      · rw [hfollower] at hleader
        cases hleader
    · rename_i hb
      split
      · exact stopped_turn (Same.refl s) hnone _
      rename_i s' resp stepDown heq
      have hsent := plainSent_heartBeatResp hnone resp
      rcases handleHeartbeat_spec heq with ⟨rfl, rfl⟩ | ⟨haccept, hs, hloop, hdown⟩
      · exact (Same.refl _).stay hsent
      rw [hfollower] at hs
      refine .hear hb rfl haccept ?_ (.inl rfl) hsent
      cases stepDown with
      | true =>
        exact ⟨hs.sealerNum, hs.position, hs.idx, hs.nodeNum, hs.f, hs.term, hs.state, hs.lastLeaderTerm⟩
      | false => exact hs
    · exact (Same.refl s).stay plainSent_nil

lemma workLoop_turn (h : s.resetConfig = s) (hloop : s.loop = .workLoop) :
    Turn E s ret (s.workLoop E).1 (s.workLoop E).2 := by
  unfold workLoop
  rw [h]
  dsimp only
  split
  · rename_i hstate
    exact .lead hstate ⟨rfl, rfl, rfl, rfl, rfl, rfl, hstate, rfl⟩
  · exact .stay ⟨rfl, rfl, rfl, rfl, rfl, rfl, rfl, rfl⟩ (Nat.zero_le _) (fun hl => (nomatch hl)) plainSent_nil
  · rename_i hstate
    split
    · rename_i hwon
      exact .winAlone hstate (of_decide_eq_true hwon) ⟨rfl, rfl, rfl, rfl, rfl, rfl, rfl, rfl⟩ hloop
    · exact .ask hstate ⟨rfl, rfl, rfl, rfl, rfl, rfl, hstate, rfl⟩ rfl

lemma turn_moves (hloop : s.loop ≠ .workLoop) {beat : Bool} : Moves E s ret (s.turn E timeout beat ret) := by
  unfold turn
  split
  · exact absurd ‹_› hloop
  · exact runAsLeaderImp_moves ‹_› timeout beat ret
  · exact runAsCandidateImp_moves ‹_› timeout ret
  · exact runAsFollowerImp_moves
  · exact .inl ((Same.refl s).stay plainSent_nil)

/-- All that a turn of a node can do whose configuration is settled. -/
theorem turn_cases (h : Settled n s) (timeout beat : Bool) (ret : Option RaftPacket) :
    Turn E s ret (s.turn E timeout beat ret).1 (s.turn E timeout beat ret).2 := by
  by_cases hloop : s.loop = .workLoop
  · have hturn : s.turn E timeout beat ret = s.workLoop E := by
      unfold turn
      rw [hloop]
    rw [hturn]
    exact workLoop_turn (resetConfig_eq h) hloop
  · rcases turn_moves (E := E) hloop with hturn | hturn
    · exact hturn
    · rw [hturn]
      exact switchToCandidate_turn h

end

end RaftEngine

end FiscoBcos
