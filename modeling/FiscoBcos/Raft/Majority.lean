import FiscoBcos.Lib.Run
import FiscoBcos.Chain.Symbolic
import FiscoBcos.Raft.Commit
import FiscoBcos.Raft.Turns

/-!
# Commits with a majority

What breaks it: an acknowledgement with an empty hash, a block that is put in place again, and a heartbeat that replaces
the block for which the sealer thread waits.
-/

namespace FiscoBcos

open RaftEngine Function Finset Symbolic RaftChain Machine

variable {resp : Option RaftHeartBeatResp} (chain : RaftChain) {stepDown : Bool} {v : VoteState} {block : Block}

def RaftChain.withdraw : RaftChain :=
  if chain.waitingForCommitting then
    { chain with uncommittedBlock := {}, uncommittedBlockNumber := 0, commitReady := true }
  else chain

namespace RaftEngine

variable {E : Env} {s a s' : RaftEngine} {timeout : Bool} {ret : Option RaftPacket} {hb : RaftHeartBeat}

inductive ChainTurn (E : Env) (timeout : Bool) (s : RaftEngine) (ret : Option RaftPacket) (s' : RaftEngine) :
    Prop where
  | kept (hnone : s.brings E timeout ret = none) (hchain : s'.chain = s.chain)
      (hnodeNum : s'.nodeNum = s.nodeNum) (hf : s'.f = s.f)
  | withdrawn (hnone : s.chain.waitingForCommitting = false → s.brings E timeout ret = none)
      (hchain : s'.chain = s.chain.withdraw)
  | installed (hb : RaftHeartBeat) (b : Block) (hret : ret = some (.heartBeat hb))
      (hbrings : s.brings E timeout ret = some b)
      (hchain : s'.chain = { s.chain with
        uncommittedBlock := b, uncommittedBlockNumber := hb.uncommitedBlockNumber })
      (hstays : s.chain.waitingForCommitting = true →
        s.state ≠ .EN_STATE_CANDIDATE ∧ (s.state = .EN_STATE_LEADER → hb.term = s.term))

lemma chain_switchToFollower (leader : Nat) (s : RaftEngine) :
    (s.switchToFollower leader).chain = s.chain.withdraw := by
  unfold switchToFollower withdraw
  dsimp only
  split <;> rfl

lemma chain_resetConfig (s : RaftEngine) : s.resetConfig = s ∨ s.resetConfig.chain = s.chain.withdraw := by
  unfold resetConfig
  split
  · exact .inr (chain_switchToFollower _ _)
  · exact .inl rfl

lemma brings_of_ne (hother : ∀ hb, ret ≠ some (.heartBeat hb)) : s.brings E timeout ret = none := by
  unfold brings
  split
  · exact absurd rfl (hother _)
  · rfl

lemma brings_of_not_pops (h : s.pops timeout = false) : s.brings E timeout ret = none := by
  unfold brings
  split
  · unfold installs
    rw [if_neg]
    rintro ⟨hpops, -⟩
    rw [h] at hpops
    cases hpops
  · rfl

lemma chainTurn_switchToCandidate (hnone : s.brings E timeout ret = none) :
    ChainTurn E timeout s ret s.switchToCandidate.leave := by
  unfold switchToCandidate
  rcases chain_resetConfig s with h | h
  · rw [h]
    exact .kept hnone rfl rfl rfl
  · exact .withdrawn (fun _ => hnone) h

lemma chainTurn_clearFirstVoteCache : s.clearFirstVoteCache.chain = s.chain := by
  unfold clearFirstVoteCache
  split <;> rfl

lemma chain_heartbeatTerm : (s.heartbeatTerm hb).1.chain = s.chain := by
  unfold heartbeatTerm
  dsimp only
  split <;> split <;> split <;> rfl

lemma handleHeartbeat_of_installs {b : Block} (h : s.installs E timeout hb = some b) :
    ∃ s' resp stepDown, s.handleHeartbeat E hb = some (s', resp, stepDown) ∧ s'.chain = { s.chain with
        uncommittedBlock := b, uncommittedBlockNumber := hb.uncommitedBlockNumber } ∧
      (stepDown = false → s.state ≠ .EN_STATE_CANDIDATE ∧ hb.term = s.term) := by
  unfold installs at h
  split at h
  case isFalse => cases h
  case isTrue hinstalls =>
    obtain ⟨-, haccept, hlen, hnumber⟩ := hinstalls
    have hspec := heartbeatTerm_spec hb { s with chain := { s.chain with
      uncommittedBlock := b, uncommittedBlockNumber := hb.uncommitedBlockNumber } } haccept
    unfold handleHeartbeat takeBlock
    rw [if_neg haccept, if_neg hlen, if_pos hnumber, h]
    exact ⟨_, _, _, rfl, chainTurn_clearFirstVoteCache.trans chain_heartbeatTerm, hspec.2.2⟩

lemma chain_handleHeartbeat (hpops : s.pops timeout) (hnone : s.installs E timeout hb = none)
    (h : s.handleHeartbeat E hb = some (s', resp, stepDown)) : s'.chain = s.chain := by
  unfold handleHeartbeat at h
  by_cases haccept : hb.term < s.term ∧ hb.term ≤ s.lastLeaderTerm
  · rw [if_pos haccept] at h
    cases h
    rfl
  rw [if_neg haccept] at h
  unfold takeBlock at h
  by_cases hlen : hb.uncommitedBlock.length = 0
  · simp only [if_pos hlen] at h
    cases h
    exact chainTurn_clearFirstVoteCache.trans chain_heartbeatTerm
  by_cases hnumber : hb.uncommitedBlockNumber - 1 = s.chain.highestBlock.number
  · unfold installs at hnone
    rw [if_pos ⟨hpops, haccept, hlen, hnumber⟩] at hnone
    simp only [if_neg hlen, if_pos hnumber, hnone] at h
    cases h
  · simp only [if_neg hlen, if_neg hnumber] at h
    cases h
    rfl

lemma pops_of_same (hsame : Same s a) : a.pops timeout = s.pops timeout := by
  unfold pops
  rw [hsame.loop, hsame.state, hsame.nodeNum]

section

variable (hsame : Same s a) (hchain : a.chain = s.chain)

include hsame hchain

lemma installs_of_same (hb : RaftHeartBeat) : a.installs E timeout hb = s.installs E timeout hb := by
  unfold installs
  rw [pops_of_same hsame, hsame.term, hsame.lastLeaderTerm, hchain]

lemma brings_of_same : a.brings E timeout ret = s.brings E timeout ret := by
  unfold brings
  split
  · exact installs_of_same hsame hchain _
  · rfl

lemma ChainTurn.of_same (h : ChainTurn E timeout a ret s') : ChainTurn E timeout s ret s' := by
  cases h with
  | kept hnone hc hn hf =>
    rw [brings_of_same hsame hchain] at hnone
    exact .kept hnone (hc.trans hchain) (hn.trans hsame.nodeNum) (hf.trans hsame.f)
  | withdrawn hnone hc =>
    rw [brings_of_same hsame hchain, hchain] at hnone
    exact .withdrawn hnone (hc.trans (congrArg withdraw hchain))
  | installed hb b hret hbrings hc hstays =>
    rw [brings_of_same hsame hchain] at hbrings
    rw [hchain] at hc hstays
    rw [hsame.state, hsame.term] at hstays
    exact .installed hb b hret hbrings hc hstays

end

lemma chain_handleVoteRequest (E : Env) (req : RaftVoteReq) (s : RaftEngine) :
    let r := s.handleVoteRequest E req
    r.1.chain = s.chain ∧ r.1.nodeNum = s.nodeNum ∧ r.1.f = s.f := by
  unfold handleVoteRequest
  repeat' split
  all_goals exact ⟨rfl, rfl, rfl⟩

lemma onVoteReq_chain (br : Option RaftPacket) (req : RaftVoteReq) :
    ChainTurn E timeout s (some (.voteReq req)) (s.onVoteReq E br req).1 := by
  obtain ⟨hchain, hnodeNum, hf⟩ := chain_handleVoteRequest E req s
  unfold onVoteReq
  dsimp only
  split
  · apply ChainTurn.withdrawn (fun _ => rfl)
    rw [← hchain]
    exact chain_switchToFollower _ _
  · exact .kept rfl hchain hnodeNum hf

lemma withdraw_install (b : Block) (number : Int) :
    let installed := { chain with uncommittedBlock := b, uncommittedBlockNumber := number }
    installed.withdraw = if chain.waitingForCommitting then chain.withdraw else installed := by
  unfold withdraw
  dsimp only
  split <;> rfl

lemma conf_handleHeartbeat (h : s.handleHeartbeat E hb = some (s', resp, stepDown)) :
    s'.nodeNum = s.nodeNum ∧ s'.f = s.f := by
  rcases handleHeartbeat_spec h with ⟨rfl, -⟩ | ⟨-, hs, -, -⟩
  · exact ⟨rfl, rfl⟩
  · exact ⟨hs.nodeNum, hs.f⟩

lemma onHeartBeat_chain {br : Option RaftPacket} (hpops : s.pops timeout) :
    ChainTurn E timeout s (some (.heartBeat hb)) (s.onHeartBeat E br hb).1 := by
  unfold onHeartBeat
  cases hinstalls : s.installs E timeout hb with
  | none =>
    split
    · exact .kept hinstalls rfl rfl rfl
    case h_2 s' resp stepDown heq =>
      have hchain := chain_handleHeartbeat hpops hinstalls heq
      cases stepDown with
      | true =>
        refine .withdrawn (fun _ => hinstalls) ?_
        rw [← hchain]
        exact chain_switchToFollower _ _
      | false =>
        have hconf := conf_handleHeartbeat heq
        exact .kept hinstalls hchain hconf.1 hconf.2
  | some b =>
    obtain ⟨s', resp, stepDown, heq, hchain, hdown⟩ := handleHeartbeat_of_installs hinstalls
    rw [heq]
    cases stepDown with
    | true =>
      have hafter : (s'.switchToFollower hb.leader).leave.chain = s'.chain.withdraw := chain_switchToFollower _ _
      rw [hchain, withdraw_install] at hafter
      split at hafter
      case isTrue hwait => exact .withdrawn (fun h => by simp [hwait] at h) hafter
      case isFalse hwait => exact .installed hb b rfl hinstalls hafter fun h => absurd h hwait
    | false =>
      obtain ⟨hstate, hterm⟩ := hdown rfl
      exact .installed hb b rfl hinstalls hchain fun _ => ⟨hstate, fun _ => hterm⟩

lemma onVoteResp_chain (resp : RaftVoteResp) : ChainTurn E timeout s (some (.voteResp resp)) (s.onVoteResp v resp) := by
  have hkept : ∀ r, r = s.handleVoteResponse resp v → r.1.chain = s.chain ∧ r.1.nodeNum = s.nodeNum ∧ r.1.f = s.f := by
    rintro r rfl
    unfold handleVoteResponse
    split
    · exact ⟨rfl, rfl, rfl⟩
    split
    case h_4 =>
      dsimp only
      split <;> exact ⟨rfl, rfl, rfl⟩
    all_goals exact ⟨rfl, rfl, rfl⟩
  unfold onVoteResp
  split
  case h_1 s' _ heq =>
    obtain ⟨hchain, hnodeNum, hf⟩ := hkept _ heq.symm
    exact .kept rfl hchain hnodeNum hf
  case h_2 s' _ heq =>
    obtain ⟨hchain, -, -⟩ := hkept _ heq.symm
    apply ChainTurn.withdrawn (fun _ => rfl)
    rw [← hchain]
    exact chain_switchToFollower _ _
  case h_3 s' v' heq =>
    obtain ⟨hchain, hnodeNum, hf⟩ := hkept _ heq.symm
    exact .kept rfl hchain hnodeNum hf

lemma chain_broadcastHeartbeat {beat : Bool} : (s.broadcastHeartbeat E beat).1.chain = s.chain := by
  unfold broadcastHeartbeat
  split
  · exact chainTurn_clearFirstVoteCache
  · rfl

lemma runAsLeaderImp_chain (hloop : s.loop = .runAsLeader) (beat : Bool) :
    ChainTurn E timeout s ret (s.runAsLeaderImp E timeout beat ret).1 := by
  unfold runAsLeaderImp
  by_cases hstate : s.state ≠ .EN_STATE_LEADER
  · rw [if_pos hstate]
    exact .kept (brings_of_not_pops (by simp [pops, hloop, hstate])) rfl rfl rfl
  rw [if_neg hstate]
  by_cases hnum : s.nodeNum > 1
  · rw [if_pos hnum]
    cases timeout with
    | true => exact chainTurn_switchToCandidate (brings_of_not_pops (by simp [pops, hloop]))
    | false =>
      have hsame := (broadcastHeartbeat_spec (E := E) beat s).1
      have hchain : (s.broadcastHeartbeat E beat).1.chain = s.chain := chain_broadcastHeartbeat
      have hpops : (s.broadcastHeartbeat E beat).1.pops false := by
        rw [pops_of_same hsame]
        simp [pops, hloop, not_not.mp hstate, hnum]
      simp
      apply ChainTurn.of_same hsame hchain
      split
      · exact onVoteReq_chain _ _
      · exact onHeartBeat_chain hpops
      case h_3 hother =>
        exact .kept (brings_of_ne hother) rfl rfl rfl
  · rw [if_neg hnum]
    exact .kept (brings_of_not_pops (by simp [pops, hloop, hnum])) rfl rfl rfl

lemma runAsCandidateImp_chain (hloop : s.loop = .runAsCandidate v) :
    ChainTurn E timeout s ret (s.runAsCandidateImp E timeout ret v).1 := by
  unfold runAsCandidateImp
  by_cases hstate : s.state ≠ .EN_STATE_CANDIDATE
  · rw [if_pos hstate]
    exact .kept (brings_of_not_pops (by simp [pops, hloop, hstate])) rfl rfl rfl
  rw [if_neg hstate]
  cases timeout with
  | true =>
    have hnone : s.brings E true ret = none := brings_of_not_pops (by simp [pops, hloop])
    rw [if_pos rfl]
    split
    · exact chainTurn_switchToCandidate hnone
    · exact .withdrawn (fun _ => hnone) (chain_switchToFollower _ _)
  | false =>
    have hpops : s.pops false := by simp [pops, hloop, not_not.mp hstate]
    simp
    split
    · exact onVoteReq_chain _ _
    · exact onVoteResp_chain _
    · exact onHeartBeat_chain hpops
    case h_4 hother =>
      exact .kept (brings_of_ne hother) rfl rfl rfl

lemma runAsFollowerImp_chain (hloop : s.loop = .runAsFollower) :
    ChainTurn E timeout s ret (s.runAsFollowerImp E timeout ret).1 := by
  unfold runAsFollowerImp
  by_cases hstate : s.state ≠ .EN_STATE_FOLLOWER
  · rw [if_pos hstate]
    exact .kept (brings_of_not_pops (by simp [pops, hloop, hstate])) rfl rfl rfl
  have hfollower := not_not.mp hstate
  rw [if_neg hstate]
  cases timeout with
  | true => exact chainTurn_switchToCandidate (brings_of_not_pops (by simp [pops, hloop]))
  | false =>
    have hpops : s.pops false := by simp [pops, hloop, hfollower]
    simp
    split
    case h_1 req =>
      obtain ⟨hchain, hnodeNum, hf⟩ := chain_handleVoteRequest E req s
      split <;> exact .kept rfl hchain hnodeNum hf
    case h_2 hb =>
      cases hinstalls : s.installs E false hb with
      | none =>
        split
        · exact .kept hinstalls rfl rfl rfl
        case h_2 s' resp stepDown heq =>
          have hchain := chain_handleHeartbeat hpops hinstalls heq
          have hconf := conf_handleHeartbeat heq
          cases stepDown <;> exact .kept hinstalls hchain hconf.1 hconf.2
      | some b =>
        obtain ⟨s', resp, stepDown, heq, hchain, -⟩ := handleHeartbeat_of_installs hinstalls
        have hstays : s.chain.waitingForCommitting = true →
            s.state ≠ .EN_STATE_CANDIDATE ∧ (s.state = .EN_STATE_LEADER → hb.term = s.term) := by
          intro _
          rw [hfollower]
          exact ⟨by simp, by simp⟩
        rw [heq]
        cases stepDown <;> exact .installed hb b rfl hinstalls hchain hstays
    case h_3 hother =>
      exact .kept (brings_of_ne hother) rfl rfl rfl

lemma workLoop_chain (hloop : s.loop = .workLoop) : ChainTurn E timeout s ret (s.workLoop E).1 := by
  have hnone : s.brings E timeout ret = none := brings_of_not_pops (by simp [pops, hloop])
  have hafter : (s.workLoop E).1.chain = s.resetConfig.chain ∧
      (s.workLoop E).1.nodeNum = s.resetConfig.nodeNum ∧ (s.workLoop E).1.f = s.resetConfig.f := by
    unfold workLoop
    dsimp only
    split
    · exact ⟨rfl, rfl, rfl⟩
    · exact ⟨rfl, rfl, rfl⟩
    · split <;> exact ⟨rfl, rfl, rfl⟩
  obtain ⟨hchain, hnodeNum, hf⟩ := hafter
  rcases chain_resetConfig s with h | h
  · rw [h] at hchain hnodeNum hf
    exact .kept hnone hchain hnodeNum hf
  · exact .withdrawn (fun _ => hnone) (hchain.trans h)

lemma turn_chain {beat : Bool} : ChainTurn E timeout s ret (s.turn E timeout beat ret).1 := by
  unfold turn
  split
  · exact workLoop_chain ‹_›
  · exact runAsLeaderImp_chain ‹_› beat
  · exact runAsCandidateImp_chain ‹_›
  · exact runAsFollowerImp_chain ‹_›
  case h_5 hloop => exact .kept (brings_of_not_pops (by simp [pops, hloop])) rfl rfl rfl

lemma turn_heartBeatResp (resp : RaftHeartBeatResp) (hleads : s.leads timeout) (beat : Bool) :
    let s' := (s.turn E timeout beat (some (.heartBeatResp resp))).1
    s'.chain = s.chain ∧ s'.nodeNum = s.nodeNum ∧ s'.f = s.f := by
  obtain ⟨hloop, hstate, hnum, htimeout⟩ := of_decide_eq_true hleads
  have hsame := (broadcastHeartbeat_spec (E := E) beat s).1
  have hchain : (s.broadcastHeartbeat E beat).1.chain = s.chain := chain_broadcastHeartbeat
  unfold turn
  rw [hloop]
  unfold runAsLeaderImp
  rw [if_neg (not_not.mpr hstate), if_pos hnum, htimeout]
  exact ⟨hchain, hsame.nodeNum, hsame.f⟩

lemma turn_single (h : s.loop = .runAsLeader ∧ s.state = .EN_STATE_LEADER ∧ s.nodeNum ≤ 1) {beat : Bool} :
    (s.turn E timeout beat ret).1 = s := by
  obtain ⟨hloop, hstate, hnum⟩ := h
  unfold turn
  rw [hloop]
  unfold runAsLeaderImp
  rw [if_neg (not_not.mpr hstate), if_neg (not_lt.mpr hnum)]

end RaftEngine

def CommitRecord.Majority (r : CommitRecord) : Prop :=
  2 ≤ r.nodeNum → r.nodeNum - r.f ≤ r.acked.card

namespace RaftCommitter

variable {E : Env} {c : RaftCommitter}

/-- A step is sound: a leader with a block that waits takes no empty hash for an acknowledgement; a block is put in
place only if its hash has not been acknowledged before, and by a heartbeat only if the sealer thread does not wait or
the node steps down, which withdraws the block. -/
def Sound (E : Env) (c : RaftCommitter) : CommitEvent → Prop
  | .turn timeout beat ret _ _ =>
    match ret with
    | some (.heartBeatResp resp) =>
      c.engine.leads timeout → resp.term = c.engine.term → c.engine.hasUncommittedBlock →
        c.engine.chain.uncommittedBlockNumber = c.engine.chain.consensusBlockNumber →
        resp.uncommitedBlockHash ≠ 0
    | some (.heartBeat hb) =>
      ∀ b ∈ c.engine.installs E timeout hb, if c.engine.chain.waitingForCommitting then
          c.engine.state = .EN_STATE_CANDIDATE ∨ (c.engine.state = .EN_STATE_LEADER ∧ hb.term ≠ c.engine.term)
        else (c.generateHeartbeat E timeout beat).commitFingerPrint (b.hash E) = ∅
    | _ => True
  | .commit block => c.sealer = none → c.commitFingerPrint (block.hash E) = ∅
  | _ => True

/-- The acknowledgements of the block in place are those of the round, the sealer thread waits for that block, and when
it is told to commit there is a majority. -/
structure Counted (E : Env) (c : RaftCommitter) : Prop where
  waiting : c.engine.chain.waitingForCommitting = c.sealer.isSome
  block : ∀ b ∈ c.sealer, c.engine.hasUncommittedBlock → c.engine.chain.uncommittedBlock = b
  prints : c.engine.hasUncommittedBlock → c.commitFingerPrint (c.engine.chain.uncommittedBlock.hash E) ⊆
      c.acks (c.engine.chain.uncommittedBlock.hash E)
  ready : ∀ b ∈ c.sealer, c.engine.chain.commitReady → c.engine.hasUncommittedBlock →
    2 ≤ c.engine.nodeNum → c.engine.nodeNum - c.engine.f ≤ (c.acks (b.hash E)).card
  commits : ∀ r ∈ c.commits, r.Majority

namespace Counted

variable {hash : Hash}

lemma sealer_eq_none (h : Counted E c) (hwaiting : ¬c.engine.chain.waitingForCommitting = true) : c.sealer = none := by
  rw [← Option.not_isSome_iff_eq_none, ← h.waiting]
  exact hwaiting

lemma of_idle (hnone : c.sealer = none) (hwaiting : c.engine.chain.waitingForCommitting = c.sealer.isSome)
    (hprints : c.engine.hasUncommittedBlock → c.commitFingerPrint (c.engine.chain.uncommittedBlock.hash E) ⊆
      c.acks (c.engine.chain.uncommittedBlock.hash E)) (hcommits : ∀ r ∈ c.commits, r.Majority) : Counted E c where
  waiting := hwaiting
  block b hb := by simp [hnone] at hb
  prints := hprints
  ready b hb := by simp [hnone] at hb
  commits := hcommits

lemma of_empty (hcommits : ∀ r ∈ c.commits, r.Majority)
    (hwaiting : c.engine.chain.waitingForCommitting = c.sealer.isSome)
    (hempty : c.engine.hasUncommittedBlock = false) : Counted E c where
  waiting := hwaiting
  block _ _ h := by simp [hempty] at h
  prints h := by simp [hempty] at h
  ready _ _ _ h := by simp [hempty] at h
  commits := hcommits

variable {s : RaftEngine}

section

variable (h : Counted E c)

include h

lemma of_engine (hblock : s.chain.uncommittedBlock = c.engine.chain.uncommittedBlock)
    (hwaiting : s.chain.waitingForCommitting = c.engine.chain.waitingForCommitting)
    (hready : s.chain.commitReady = c.engine.chain.commitReady) (hnodeNum : s.nodeNum = c.engine.nodeNum)
    (hf : s.f = c.engine.f) : Counted E { c with engine := s } := by
  have huncommitted : s.hasUncommittedBlock = c.engine.hasUncommittedBlock := by
    unfold hasUncommittedBlock
    rw [hblock]
  constructor
  case waiting => exact hwaiting.trans h.waiting
  case block =>
    intro b hb hpresent
    exact hblock.trans (h.block b hb (huncommitted ▸ hpresent))
  case prints =>
    intro hpresent
    rw [hblock]
    exact h.prints (huncommitted ▸ hpresent)
  case ready =>
    intro b hb hcommit hpresent
    rw [hnodeNum, hf]
    exact h.ready b hb (hready ▸ hcommit) (huncommitted ▸ hpresent)
  case commits => exact h.commits

lemma of_engine_eq (hchain : s.chain = c.engine.chain)
    (hnodeNum : s.nodeNum = c.engine.nodeNum) (hf : s.f = c.engine.f) : Counted E { c with engine := s } := by
  apply h.of_engine _ _ _ hnodeNum hf
  all_goals rw [hchain]

lemma of_withdraw (hchain : s.chain = c.engine.chain.withdraw) : Counted E { c with engine := s } := by
  unfold withdraw at hchain
  split at hchain
  case isTrue hwaiting =>
    apply of_empty
    case hcommits => exact h.commits
    case hwaiting =>
      rw [hchain]
      exact h.waiting
    case hempty =>
      unfold hasUncommittedBlock
      rw [hchain]
      rfl
  case isFalse hwaiting =>
    apply of_idle
    case hnone => exact h.sealer_eq_none hwaiting
    case hwaiting =>
      rw [hchain]
      exact h.waiting
    case hprints =>
      intro hpresent
      unfold hasUncommittedBlock at hpresent
      rw [hchain] at hpresent ⊢
      exact h.prints hpresent
    case hcommits => exact h.commits

lemma ack (hash : Hash) (idx : Nat) : Counted E (c.ack hash idx) where
  waiting := h.waiting
  block := h.block
  prints hpresent := by
    have hsub := h.prints hpresent
    unfold RaftCommitter.ack
    dsimp only
    by_cases heq : c.engine.chain.uncommittedBlock.hash E = hash
    · subst heq
      rw [update_self, update_self]
      exact insert_subset_insert idx hsub
    · rw [update_of_ne heq, update_of_ne heq]
      exact hsub
  ready b hb hcommit hpresent hnum := by
    apply (h.ready b hb hcommit hpresent hnum).trans
    apply card_le_card
    unfold RaftCommitter.ack
    dsimp only
    by_cases heq : b.hash E = hash
    · subst heq
      rw [update_self]
      exact subset_insert idx _
    · rw [update_of_ne heq]
  commits := h.commits

lemma record (hmajority : 2 ≤ c.engine.nodeNum → c.engine.nodeNum - c.engine.f ≤ (c.acks hash).card) :
    Counted E (c.record hash) where
  waiting := h.waiting
  block := h.block
  prints := h.prints
  ready := h.ready
  commits r hr := by
    rcases List.mem_cons.mp hr with rfl | hr
    · exact hmajority
    · exact h.commits r hr

lemma clear : Counted E c.clear :=
  of_empty h.commits h.waiting rfl

variable (saved : Bool) (head : BlockHeader)

lemma checkAndExecute (hmajority : 2 ≤ c.engine.nodeNum → c.engine.nodeNum - c.engine.f ≤ (c.acks (block.hash E)).card)
    : Counted E (c.checkAndExecute E block saved head) := by
  have hrecord := h.record hmajority
  unfold RaftCommitter.checkAndExecute
  split
  · exact of_empty hrecord.commits hrecord.waiting rfl
  · exact hrecord

lemma reportBlock (number : Int) (head : BlockHeader) : Counted E (c.reportBlock E number head) := by
  unfold RaftCommitter.reportBlock
  split
  case isFalse => exact h
  case isTrue =>
    have hreported : Counted E { c with
        commitFingerPrint := update c.commitFingerPrint (c.engine.chain.uncommittedBlock.hash E) ∅
        engine := { c.engine with chain := c.engine.chain.report head } } :=
      of_empty h.commits h.waiting rfl
    rcases chain_resetConfig { c.engine with chain := c.engine.chain.report head } with
      hsame | hchain
    · rw [hsame]
      exact hreported
    · exact hreported.of_withdraw hchain

lemma commitUncommitted (hmajority : 2 ≤ c.engine.nodeNum →
      c.engine.nodeNum - c.engine.f ≤ (c.acks (c.engine.chain.uncommittedBlock.hash E)).card) :
    Counted E (c.commitUncommitted E saved head) := by
  unfold RaftCommitter.commitUncommitted
  split
  case isTrue =>
    have hrecord := h.record hmajority
    constructor
    case waiting => exact h.waiting
    case block => exact h.block
    case prints => exact h.prints
    case ready =>
      intro b hb _ hpresent
      rw [← h.block b hb hpresent]
      exact hmajority
    case commits => exact hrecord.commits
  case isFalse => exact (h.checkAndExecute saved head hmajority).reportBlock _ _

lemma tryCommitUncommitedBlock (resp : RaftHeartBeatResp) (saved : Bool) (head : BlockHeader)
    (hresp : 2 ≤ c.engine.nodeNum → c.engine.hasUncommittedBlock →
      c.engine.chain.uncommittedBlockNumber = c.engine.chain.consensusBlockNumber → resp.uncommitedBlockHash ≠ 0) :
    Counted E (c.tryCommitUncommitedBlock E resp saved head) := by
  unfold RaftCommitter.tryCommitUncommitedBlock
  dsimp only
  split
  case isFalse => exact h
  case isTrue hpresent =>
    split
    case isFalse => exact h.clear
    case isTrue hnumber =>
      split
      case isTrue =>
        have hack := h.ack (c.engine.chain.uncommittedBlock.hash E) resp.idx
        split
        case isFalse => exact hack
        case isTrue hcard =>
          apply hack.commitUncommitted
          intro _
          exact hcard.trans (card_le_card (hack.prints hpresent))
      case isFalse =>
        split
        case isFalse => exact h
        case isTrue hzero =>
          apply h.commitUncommitted
          intro hnum
          exact absurd hzero (hresp hnum hpresent hnumber)

lemma generateHeartbeat (timeout beat : Bool) : Counted E (c.generateHeartbeat E timeout beat) := by
  unfold RaftCommitter.generateHeartbeat
  split
  · exact h.ack _ _
  · exact h

lemma of_packet (timeout beat : Bool) (ret : Option RaftPacket)
    (hsound : ∀ hb, ret = some (.heartBeat hb) → ∀ b ∈ c.engine.installs E timeout hb,
      if c.engine.chain.waitingForCommitting then
        c.engine.state = .EN_STATE_CANDIDATE ∨ (c.engine.state = .EN_STATE_LEADER ∧ hb.term ≠ c.engine.term)
      else c.commitFingerPrint (b.hash E) = ∅) : Counted E { c.beginRound E timeout ret c.engine with
      engine := (c.engine.turn E timeout beat ret).1 } := by
  unfold beginRound
  cases turn_chain with
  | kept hnone hchain hnodeNum hf =>
    rw [hnone]
    exact h.of_engine_eq hchain hnodeNum hf
  | withdrawn hnone hchain =>
    cases hwaiting : c.engine.chain.waitingForCommitting with
    | false =>
      rw [hnone hwaiting]
      exact h.of_withdraw hchain
    | true =>
      -- nothing is in place any more, so it does not matter which round it is
      have hafter := h.of_withdraw hchain
      have hempty : (c.engine.turn E timeout beat ret).1.hasUncommittedBlock = false := by
        unfold hasUncommittedBlock
        rw [hchain]
        unfold withdraw
        rw [if_pos hwaiting]
        rfl
      split
      · exact of_empty h.commits hafter.waiting hempty
      · exact hafter
  | installed hb b hret hbrings hchain hstays =>
    subst hret
    have hb' := hsound hb rfl b hbrings
    rw [hbrings]
    split at hb'
    case isTrue hwaiting =>
      obtain ⟨hcandidate, hleader⟩ := hstays hwaiting
      rcases hb' with hstate | ⟨hstate, hterm⟩
      · exact absurd hstate hcandidate
      · exact absurd (hleader hstate) hterm
    case isFalse hwaiting =>
      apply of_idle
      case hnone => exact h.sealer_eq_none hwaiting
      case hwaiting =>
        rw [hchain]
        exact h.waiting
      case hprints =>
        intro _
        rw [hchain]
        change c.commitFingerPrint (b.hash E) ⊆ _
        rw [hb']
        exact empty_subset _
      case hcommits => exact h.commits

lemma turn {timeout beat : Bool} {ret : Option RaftPacket} {saved : Bool} {head : BlockHeader}
    (hsound : c.Sound E (.turn timeout beat ret saved head)) : Counted E (c.turn E timeout beat ret saved head) := by
  have hbeat := h.generateHeartbeat timeout beat
  have hengine : (c.generateHeartbeat E timeout beat).engine = c.engine := by
    unfold RaftCommitter.generateHeartbeat
    split <;> rfl
  have hpacket := hbeat.of_packet timeout beat ret (by
    rw [hengine]
    rintro hb rfl
    exact hsound)
  rw [hengine] at hpacket
  unfold RaftCommitter.turn
  dsimp only
  split
  case isTrue hleads =>
    split
    case h_1 resp =>
      split
      case isFalse => exact hpacket
      case isTrue hterm =>
        obtain ⟨hchain, hnodeNum, -⟩ := turn_heartBeatResp (E := E) resp hleads beat
        apply hpacket.tryCommitUncommitedBlock
        intro _ hpresent hnumber
        unfold hasUncommittedBlock at hpresent
        rw [hchain] at hpresent hnumber
        exact hsound hleads hterm hpresent hnumber
    case h_2 => exact hpacket
  case isFalse =>
    split
    case isTrue hsingle =>
      apply hpacket.tryCommitUncommitedBlock
      intro hnum
      dsimp only at hnum
      rw [turn_single hsingle] at hnum
      omega
    case isFalse => exact hpacket

lemma commit (hsound : c.Sound E (.commit block)) : Counted E (c.commit block) := by
  unfold RaftCommitter.commit
  split
  case h_1 => exact h
  case h_2 hnone =>
    constructor
    case waiting => rfl
    case block =>
      intro b hb _
      exact Option.some.inj hb
    case prints =>
      intro _
      rw [hsound hnone]
    case ready =>
      intro b hb hcommit
      cases hcommit
    case commits => exact h.commits

lemma wake : Counted E (c.wake E saved head) := by
  unfold RaftCommitter.wake
  split
  case h_1 => exact h
  case h_2 block hblock =>
    split
    case isFalse => exact h
    case isTrue hready =>
      have hwoken : Counted E { c with
          engine := { c.engine with chain := { c.engine.chain with
            commitReady := false, waitingForCommitting := false } }
          sealer := none } :=
        of_idle rfl rfl h.prints h.commits
      dsimp only
      split
      case isTrue => exact hwoken
      case isFalse hpresent =>
        have hpresent : c.engine.hasUncommittedBlock = true :=
          (Bool.not_eq_false' _).mp (Bool.eq_false_of_not_eq_true hpresent)
        split
        case isTrue => exact hwoken
        case isFalse =>
          apply hwoken.checkAndExecute
          exact h.ready block hblock hready hpresent

lemma step {e : CommitEvent} (hsound : c.Sound E e) : Counted E (c.step E e) := by
  cases e with
  | turn => exact h.turn hsound
  | commit => exact h.commit hsound
  | wake saved head => exact h.wake saved head
  | reportBlock number head => exact h.reportBlock number head
  | chainNumber => exact h.of_engine rfl rfl rfl rfl rfl
  | syncing =>
    apply h.of_engine_eq
    all_goals
      unfold syncing
      split <;> rfl
  | sealerList => exact h.of_engine_eq rfl rfl rfl

end

end Counted

def start (engine : RaftEngine) : RaftCommitter where
  engine := { engine with chain := { engine.chain with waitingForCommitting := false } }

/-- In every run of sound steps every commit has a majority of acknowledgements of its round. -/
theorem commits_of_majority (E : Env) (engine : RaftEngine) (es : List CommitEvent)
    (hes : Along (step E) (Sound E) (start engine) es) :
    ∀ r ∈ (run (step E) (start engine) es).commits, 2 ≤ r.nodeNum → r.nodeNum - r.f ≤ r.acked.card := by
  have hstart : Counted E (start engine) := by
    apply Counted.of_idle rfl rfl
    · exact fun _ => empty_subset _
    · exact fun r hr => absurd hr List.not_mem_nil
  exact (invariant_run (Counted E) (fun c e hsound h => h.step hsound) hstart hes).commits

instance (E : Env) (c : RaftCommitter) (e : CommitEvent) : Decidable (c.Sound E e) := by
  unfold Sound
  split
  · split <;> infer_instance
  all_goals infer_instance

def pop (packet : RaftPacket) : CommitEvent :=
  .turn false false (some packet) false {}

def idle : CommitEvent :=
  .turn false false none false {}

def beat : CommitEvent :=
  .turn false true none false {}

def elected (voters : Nat) : List CommitEvent :=
  [idle, .turn true false none false {}, idle] ++
    List.replicate voters (pop (.voteResp { term := 1, voteFlag := .VOTE_RESP_GRANTED })) ++ [idle]

def nodeOf (n : Nat) : RaftCommitter :=
  start (resetConfig { sealerNum := n, position := 0 })

def sampleBlock : Block where
  header := { number := 1, timestamp := 7 }

def acknowledges (idx : Nat) (hash : Hash) : CommitEvent :=
  pop (.heartBeatResp { idx := idx, term := 1, uncommitedBlockHash := hash })

/-- A leader of three nodes commits its block after it has sent it and node 1 has acknowledged it. -/
theorem commits_of_majority_sample :
    let es := elected 1 ++ [.commit sampleBlock, beat, acknowledges 1 (sampleBlock.hash env)]
    let c := run (step env) (nodeOf 3) es
    c.commits ≠ [] ∧ ∀ r ∈ c.commits, 2 ≤ r.nodeNum → r.nodeNum - r.f ≤ r.acked.card := by
  intro es c
  have hes : Along (step env) (Sound env) (nodeOf 3) es := by decide +kernel
  exact ⟨by decide +kernel, commits_of_majority env _ es hes⟩

def Lacks (c : RaftCommitter) : Prop :=
  ∃ r ∈ c.commits, 2 ≤ r.nodeNum ∧ r.acked.card < r.nodeNum - r.f

instance (c : RaftCommitter) : Decidable c.Lacks :=
  inferInstanceAs (Decidable (∃ r ∈ c.commits, 2 ≤ r.nodeNum ∧ r.acked.card < r.nodeNum - r.f))

/-- (a) A heartbeat without a block is acknowledged with an empty hash, and the answer arrives when a block waits. (b)
Of five nodes, node 1 has acknowledged the block before it was withdrawn and put in place again, and node 2 afterwards.
-/
theorem not_commits_of_majority :
    let run (n : Nat) := run (step env) (nodeOf n)
    let hash := sampleBlock.hash env
    let stepDown := pop (.heartBeat { term := 2 })
    Lacks (run 3 (elected 1 ++ [beat, .commit sampleBlock, acknowledges 1 0])) ∧
      Lacks (run 5 (elected 2 ++ [.commit sampleBlock, beat, acknowledges 1 hash, stepDown,
        .wake false {}, idle, .turn true false none false {}, idle,
        pop (.voteResp { term := 3, voteFlag := .VOTE_RESP_GRANTED }),
        pop (.voteResp { term := 3, voteFlag := .VOTE_RESP_GRANTED }), idle, .commit sampleBlock,
        pop (.heartBeatResp { idx := 2, term := 3, uncommitedBlockHash := hash })])) := by
  decide +kernel

end RaftCommitter

end FiscoBcos
