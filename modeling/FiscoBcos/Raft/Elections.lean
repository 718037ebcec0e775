import FiscoBcos.Chain.Symbolic
import FiscoBcos.Raft.Network

/-!
# One leader a term

Every safe step of the network is a sequence of steps of the election it refines.
-/

namespace FiscoBcos

open Election RaftEnvelope Function List Option Machine RaftPacket RaftRole Nat

variable {p : RaftPacket} {r : RaftRole} {req : RaftVoteReq}

variable {n : Nat} {E : Env} {net : RaftNet n} {k : Fin n} {s' : RaftEngine} {sent : RaftSent}
  {ret : Option RaftPacket} {sender : Option (Fin n)} {rest : List (RaftEnvelope n)}

def raftQuorum (n : Nat) : Nat :=
  n - (n - 1) / 2

namespace RaftEngine

structure LastSeen (s : RaftEngine) : Prop where
  le : s.lastLeaderTerm ≤ s.term
  candidate : s.state = .EN_STATE_CANDIDATE → s.lastLeaderTerm < s.term
  leader : s.state = .EN_STATE_LEADER → s.loop = .runAsLeader → s.lastLeaderTerm = s.term

variable {s : RaftEngine} {l t : Nat}

lemma role_leader (h : s.state = .EN_STATE_LEADER) : s.role = .leader := by
  unfold role
  rw [h]

lemma role_follower (h : s.state = .EN_STATE_FOLLOWER) : s.role = .follower := by
  unfold role
  rw [h]

lemma role_candidate (h : s.state = .EN_STATE_CANDIDATE) : s.role = .candidate s.votes := by
  unfold role
  rw [h]

lemma Becomes.node_follower (h : Becomes s s' t .EN_STATE_FOLLOWER l) : s'.node = ⟨t, .follower⟩ := by
  unfold node
  rw [h.term, role_follower h.state]

lemma Becomes.node_leader (h : Becomes s s' t .EN_STATE_LEADER l) : s'.node = ⟨t, .leader⟩ := by
  unfold node
  rw [h.term, role_leader h.state]

lemma Becomes.node_candidate (h : Becomes s s' t .EN_STATE_CANDIDATE l) : s'.node = ⟨t, .candidate s'.votes⟩ := by
  unfold node
  rw [h.term, role_candidate h.state]

lemma Becomes.not_leader (h : Becomes s s' t r l)
    (hr : r ≠ .EN_STATE_LEADER) {p : Prop} (hs : s'.state = .EN_STATE_LEADER) : p :=
  absurd (h.state.symm.trans hs) hr

def NoGrant : RaftPacket → Prop
  | .voteResp r => r.voteFlag ≠ .VOTE_RESP_GRANTED
  | _ => True

lemma Plain.noGrant (h : Plain p) : NoGrant p := by
  cases p with
  | voteResp => exact h.1
  | _ => trivial

structure SentNoGrant (sent : RaftSent) : Prop where
  broadcast : ∀ p, sent.broadcast = some p → NoGrant p
  response : ∀ p, sent.response = some p → NoGrant p

lemma PlainSent.noGrant (h : PlainSent sent) : SentNoGrant sent :=
  ⟨fun p hp => (h.broadcast p hp).noGrant, fun p hp => (h.response p hp).noGrant⟩

lemma sentNoGrant_voteReq : SentNoGrant { broadcast := some (.voteReq req) } := by
  refine ⟨fun p hp => ?_, fun p hp => (nomatch hp)⟩
  cases hp
  trivial

end RaftEngine

open RaftEngine

section

variable {e : RaftEnvelope n}

lemma mem_deliver (h : e ∈ sent.deliver k sender) :
    e.sender = k ∧ ∃ p, e.packet = p.narrow ∧ ((sent.broadcast = some p ∧ e.receiver ≠ k) ∨
      (sent.response = some p ∧ sender = some e.receiver)) := by
  rcases mem_append.mp h with hb | hr
  · cases hp : sent.broadcast with
    | none => simp [hp] at hb
    | some p =>
      rw [hp] at hb
      obtain ⟨j, hj, rfl⟩ := mem_map.mp hb
      exact ⟨rfl, p, rfl, .inl ⟨rfl, of_decide_eq_true (mem_filter.mp hj).2⟩⟩
  · split at hr
    · rename_i p j hp
      obtain rfl := mem_singleton.mp hr
      exact ⟨rfl, p, rfl, .inr ⟨hp, rfl⟩⟩
    · simp at hr

lemma grants_narrow (hp : e.packet = p.narrow) (h : NoGrant p) (c : Fin n) (t : Nat) : grants c t e = false := by
  unfold grants
  rw [hp]
  cases p with
  | voteResp => exact decide_eq_false fun hg => h hg.2.1
  | _ => rfl

lemma countP_deliver (h : SentNoGrant sent) (c : Fin n) (t : Nat) :
    (sent.deliver k sender).countP (grants c t) = 0 := by
  apply countP_eq_zero.mpr
  intro e he
  obtain ⟨-, p, hp, hsrc⟩ := mem_deliver he
  have hno : NoGrant p := hsrc.elim (fun hb => h.broadcast p hb.1) fun hr => h.response p hr.1
  rw [grants_narrow hp hno]
  exact Bool.false_ne_true

lemma cast_of_noGrant (h : SentNoGrant sent) (s s' : RaftEngine) : sent.cast k sender s s' =
      if s'.state = .EN_STATE_LEADER ∧ s.state ≠ .EN_STATE_LEADER then [⟨k, k, s'.term⟩] else [] := by
  unfold RaftSent.cast
  split
  · rename_i r j hr
    rw [if_neg (h.response _ hr)]
    rfl
  · rfl

inductive Pops (net : RaftNet n) (k : Fin n) :
    Option RaftPacket → Option (Fin n) → List (RaftEnvelope n) → Prop where
  | nothing : Pops net k none none net.inFlight
  | packet (e : RaftEnvelope n) {rest : List (RaftEnvelope n)} (hk : e.receiver = k)
      (hperm : net.inFlight.Perm (e :: rest)) : Pops net k (some e.packet) (some e.sender) rest

section

variable (h : Pops net k ret sender rest)

include h

lemma Pops.mem_of_mem (he : e ∈ rest) : e ∈ net.inFlight := by
  cases h with
  | nothing => exact he
  | packet e' hk hperm => exact hperm.mem_iff.mpr (mem_cons_of_mem _ he)

lemma Pops.countP_le (c : Fin n) (t : Nat) : rest.countP (grants c t) ≤ net.election.flying c t := by
  cases h with
  | nothing => exact le_rfl
  | packet e hk hperm =>
    change _ ≤ net.inFlight.countP _
    rw [hperm.countP_eq, countP_cons]
    exact le_add_right _ _

lemma Pops.countP_add {r : RaftVoteResp}
    (hret : ret = some (.voteResp r)) (hflag : r.voteFlag = .VOTE_RESP_GRANTED) (c : Fin n) (t : Nat) :
    rest.countP (grants c t) + (if c = k ∧ t = r.term then 1 else 0) ≤ net.election.flying c t := by
  cases h with
  | nothing => cases hret
  | packet e hk hperm =>
    have hpacket := some.inj hret
    change _ ≤ net.inFlight.countP _
    rw [hperm.countP_eq, countP_cons]
    apply Nat.add_le_add_left
    split
    · rename_i hct
      obtain ⟨rfl, rfl⟩ := hct
      have hgrants : grants c r.term e = true := by
        unfold grants
        rw [hpacket]
        exact decide_eq_true ⟨hk, hflag, rfl⟩
      rw [if_pos hgrants]
    · exact zero_le _

end

end

variable {l : Nat}

section Steps

open Relation

lemma election_act (net : RaftNet n) (k : Fin n) (sender : Option (Fin n)) (rest : List (RaftEnvelope n))
    (s' : RaftEngine) (sent : RaftSent) : (net.act k sender rest (s', sent)).election = { { net.election with
          flying := fun c t => (rest ++ sent.deliver k sender).countP (grants c t)
        }.set k s'.node with votes := sent.cast k sender (net.nodes k) s' ++ net.votes } := by
  have hnodes : (fun j => (update net.nodes k s' j).node) = update (fun j => (net.nodes j).node) k s'.node :=
    comp_update node net.nodes k s'
  unfold RaftNet.election RaftNet.act State.set
  rw [hnodes]

def RaftNet.electionWith (net : RaftNet n) (rest : List (RaftEnvelope n)) : State (Fin n) :=
  { net.election with flying := fun c t => rest.countP (grants c t) }

lemma steps_electionWith (hpop : Pops net k ret sender rest) :
    Step (raftQuorum n) net.election (net.electionWith rest) :=
  .lose net.election hpop.countP_le

lemma election_act_of_noGrant (hsent : SentNoGrant sent) :
    (net.act k sender rest (s', sent)).election = { (net.electionWith rest).set k s'.node with
        votes := (if s'.state = .EN_STATE_LEADER ∧ (net.nodes k).state ≠ .EN_STATE_LEADER then
          [⟨k, k, s'.term⟩] else []) ++ net.votes } := by
  rw [election_act, cast_of_noGrant hsent]
  simp only [countP_append, countP_deliver hsent, add_zero]
  rfl

lemma election_act_of_noVote (hsent : SentNoGrant sent)
    (hstate : s'.state = .EN_STATE_LEADER → (net.nodes k).state = .EN_STATE_LEADER) :
    (net.act k sender rest (s', sent)).election = (net.electionWith rest).set k s'.node := by
  rw [election_act_of_noGrant hsent, if_neg fun h => h.2 (hstate h.1)]
  rfl

lemma election_act_of_win (hsent : SentNoGrant sent)
    (hcand : (net.nodes k).state = .EN_STATE_CANDIDATE) (hstate : s'.state = .EN_STATE_LEADER) :
    (net.act k sender rest (s', sent)).election = ((net.electionWith rest).set k s'.node).record ⟨k, k, s'.term⟩ := by
  rw [election_act_of_noGrant hsent, if_pos ⟨hstate, by rw [hcand]; exact noConfusion⟩]
  rfl

lemma election_act_of_grant {j : Fin n} {resp : RaftVoteResp} (hbroadcast : ∀ p, sent.broadcast = some p → NoGrant p)
    (hresponse : sent.response = some (.voteResp resp)) (hflag : resp.voteFlag = .VOTE_RESP_GRANTED)
    (hterm : resp.term < 2 ^ 32) (hstate : s'.state ≠ .EN_STATE_LEADER) :
    (net.act k (some j) rest (s', sent)).election = ({ net.election with
          flying := fun c t => rest.countP (grants c t) +
            if c = j ∧ t = resp.term then 1 else 0 }.set k s'.node).record ⟨k, j, resp.term⟩ := by
  have hcast : sent.cast k (some j) (net.nodes k) s' = [⟨k, j, resp.term⟩] := by
    unfold RaftSent.cast
    rw [hresponse]
    simp [hflag, hstate]
  have hdeliver : ∀ c t, (sent.deliver k (some j)).countP (grants c t) =
      if c = j ∧ t = resp.term then 1 else 0 := by
    intro c t
    have hsplit : sent.deliver k (some j) = RaftSent.deliver { broadcast := sent.broadcast } k (some j) ++
          [⟨k, j, (voteResp resp).narrow⟩] := by
      unfold RaftSent.deliver
      rw [hresponse]
      simp
    have hnarrow : narrowNat resp.term = resp.term := mod_eq_of_lt hterm
    have hno : SentNoGrant { broadcast := sent.broadcast } := ⟨hbroadcast, fun p hp => (nomatch hp)⟩
    rw [hsplit, countP_append, countP_deliver hno, countP_singleton, zero_add]
    refine if_congr ?_ rfl rfl
    change decide (j = c ∧ resp.voteFlag = _ ∧ narrowNat resp.term = t) = true ↔ _
    rw [decide_eq_true_eq, hnarrow, eq_comm (a := j), eq_comm (a := resp.term)]
    exact ⟨fun h => ⟨h.1, h.2.2⟩, fun h => ⟨h.1, hflag, h.2⟩⟩
  rw [election_act, hcast]
  simp only [countP_append, hdeliver]
  rfl

def RaftPacket.Honest : RaftPacket → Prop
  | .voteReq req => req.lastLeaderTerm < req.term ∧ req.term < 2 ^ 32
  | .voteResp r => r.voteFlag ≠ .VOTE_RESP_LEADER_REJECT
  | .heartBeat hb => hb.term < 2 ^ 32
  | .heartBeatResp _ => True

/-- A packet on its way was sent by another node, and votes are asked for within its reach. -/
structure RaftNet.Mailed (net : RaftNet n) (e : RaftEnvelope n) : Prop where
  ne : e.sender ≠ e.receiver
  honest : e.packet.Honest
  reach : ∀ req, e.packet = .voteReq req → req.term ≤ (net.election.nodes e.sender).reach

structure RaftNet.Sound (net : RaftNet n) : Prop where
  settled : ∀ k, Settled n (net.nodes k)
  term : ∀ k, (net.nodes k).term < 2 ^ 32
  lastSeen : ∀ k, (net.nodes k).LastSeen
  mail : ∀ e ∈ net.inFlight, net.Mailed e

lemma RaftEngine.Becomes.node_eq {s : RaftEngine} (h : Becomes s s' s.term s.state l)
    (hstate : s.state ≠ .EN_STATE_CANDIDATE) : s'.node = s.node := by
  have hrole : s'.role = s.role := by
    unfold role
    rw [h.state]
    cases hs : s.state with
    | EN_STATE_CANDIDATE => exact absurd hs hstate
    | _ => rfl
  unfold node
  rw [h.term, hrole]

lemma Pops.mailed (hs : net.Sound) (hpop : Pops net k ret sender rest)
    (hret : ret = some p) : ∃ j, sender = some j ∧ k ≠ j ∧ p.Honest ∧
      ∀ req, p = .voteReq req → req.term ≤ (net.election.nodes j).reach := by
  cases hpop with
  | nothing => cases hret
  | packet e hk hperm =>
    cases hret
    have hmail := hs.mail e (hperm.mem_iff.mpr mem_cons_self)
    exact ⟨e.sender, rfl, hk ▸ hmail.ne.symm, hmail.honest, hmail.reach⟩

lemma term_lt_of_grant {s : RaftEngine} (hs : s.LastSeen) (hreq : req.lastLeaderTerm < req.term)
    (h : s.term < req.term ∨ (s.state = .EN_STATE_LEADER ∧ s.loop = .runAsLeader ∧
      s.lastLeaderTerm ≤ req.lastLeaderTerm)) : s.term < req.term := by
  rcases h with hlt | ⟨hstate, hloop, hle⟩
  · exact hlt
  · rw [← hs.leader hstate hloop]
    exact hle.trans_lt hreq

lemma RaftNet.Sound.quorum (hs : net.Sound) (k : Fin n) : (net.nodes k).nodeNum - (net.nodes k).f = raftQuorum n := by
  rw [(hs.settled k).nodeNum, (hs.settled k).f]
  rfl

lemma le_predTerm_succ {t : Nat} : t ≤ predTerm t + 1 := by
  unfold predTerm
  split <;> omega

lemma act_steps (hs : net.Sound) (hpop : Pops net k ret sender rest)
    (hturn : Turn E (net.nodes k) ret s' sent) (hsafe : (net.nodes k).SafePacket ret) :
    ReflTransGen (Step (raftQuorum n)) net.election (net.act k sender rest (s', sent)).election := by
  have hlose : ReflTransGen (Step (raftQuorum n)) net.election (net.electionWith rest) :=
    .single (steps_electionWith hpop)
  have hlast := hs.lastSeen k
  have hterm := hs.term k
  have hquorum := hs.quorum k
  have hrole : (net.nodes k).state = .EN_STATE_CANDIDATE →
      ((net.electionWith rest).nodes k).role = .candidate (net.nodes k).votes := role_candidate
  have hself : (net.electionWith rest).set k (net.nodes k).node = net.electionWith rest := State.set_self rfl
  cases hturn with
  | stay hb hvotes hloop hsent =>
    rw [election_act_of_noVote hsent.noGrant fun h => hb.state ▸ h]
    by_cases hcand : (net.nodes k).state = .EN_STATE_CANDIDATE
    · rw [hcand] at hb
      rw [hb.node_candidate]
      exact hlose.tail (.recount _ k (hrole hcand) (.inr hvotes))
    · rw [hb.node_eq hcand, hself]
      exact hlose
  | lead hstate hb =>
    rw [← hstate] at hb
    rw [election_act_of_noVote plainSent_nil.noGrant fun _ => hstate,
      hb.node_eq (by rw [hstate]; exact noConfusion), hself]
    exact hlose
  | ask hstate hb hvotes =>
    rw [election_act_of_noVote sentNoGrant_voteReq (hb.not_leader (by decide)), hb.node_candidate, hvotes]
    exact hlose.tail (.recount _ k (hrole hstate) (.inl le_rfl))
  | winAlone hstate hq hb =>
    rw [election_act_of_win sentNoGrant_voteReq hstate hb.state, hb.node_leader, hb.term]
    exact hlose.trans (steps_win _ k (hrole hstate) (.inl le_rfl) (hquorum ▸ hq))
  | campaign hb hvotes =>
    rw [election_act_of_noVote plainSent_nil.noGrant (hb.not_leader (by decide))]
    have hsucc : succTerm (net.nodes k).term = (net.nodes k).term + 1 := by
      exact if_neg (by omega)
    rw [hb.node_candidate, hvotes, hsucc]
    exact hlose.tail (.campaign _ k)
  | retreat hstate hb =>
    rw [election_act_of_noVote plainSent_nil.noGrant (hb.not_leader (by decide))]
    rw [hb.node_follower]
    exact hlose.tail (.retreat _ k (hrole hstate) le_predTerm_succ)
  | giveUp hstate hb =>
    rw [election_act_of_noVote plainSent_nil.noGrant (hb.not_leader (by decide))]
    rw [hb.node_follower]
    exact hlose.tail (.follow _ k le_rfl)
  | rejected resp hret hflag =>
    obtain ⟨j, -, -, hhonest, -⟩ := hpop.mailed hs hret
    exact absurd hflag hhonest
  | grant req hret hlater hb hbroadcast resp hresponse hflag hresp =>
    obtain ⟨j, rfl, hne, ⟨hreq, hlt⟩, hreach⟩ := hpop.mailed hs hret
    rw [election_act_of_grant (fun p hp => (hbroadcast p hp).noGrant) hresponse hflag
      (hresp ▸ hlt) (by rw [hb.state]; exact noConfusion), hb.node_follower, hresp]
    apply ReflTransGen.single
    exact .grant net.election k j hne (term_lt_of_grant hlast hreq hlater) (hreach req rfl)
      fun c t => Nat.add_le_add_right (hpop.countP_le c t) _
  | hear heartbeat hret haccept hb hstate hsent =>
    rw [hret] at hsafe
    rcases hstate with rfl | ⟨rfl, hcand, heq⟩
    · rw [election_act_of_noVote hsent.noGrant (hb.not_leader (by decide)), hb.node_follower]
      by_cases hle : (net.nodes k).term ≤ heartbeat.term
      · exact hlose.tail (.follow _ k hle)
      have hnew : (net.nodes k).lastLeaderTerm < heartbeat.term := by
        by_contra hold
        exact haccept ⟨by omega, by omega⟩
      obtain ⟨hcand, hback⟩ := (hsafe hnew).resolve_left hle
      exact hlose.tail (.retreat _ k (hrole hcand) hback)
    · rw [heq] at hb
      rw [election_act_of_noVote hsent.noGrant fun h => hb.state ▸ h, hb.node_eq hcand, hself]
      exact hlose
  | count resp hret hflag hrecent hstate hb hvotes =>
    rw [election_act_of_noVote plainSent_nil.noGrant (hb.not_leader (by decide))]
    rw [hb.node_candidate, hvotes]
    rw [hret] at hsafe
    exact .single (.count net.election k (role_candidate hstate) (hsafe hstate hflag) (hpop.countP_add hret hflag))
  | win resp hret hflag hrecent hstate hq hb =>
    rw [election_act_of_win plainSent_nil.noGrant hstate hb.state, hb.node_leader, hb.term]
    have hcount := hpop.countP_add hret hflag
    rw [hret] at hsafe
    exact steps_count_win net.election k (role_candidate hstate) (hsafe hstate hflag) hcount (hquorum ▸ hq)

end Steps

structure RaftNet.Safe (net : RaftNet n) : Prop extends net.Sound where
  election : Inv (raftQuorum n) net.election
  leads : Leads net.election

section

variable {s : RaftEngine}

lemma RaftEngine.Becomes.settled {t : Nat} (h : Becomes s s' t r l) (hs : Settled n s) : Settled n s' where
  sealerNum := h.sealerNum.trans hs.sealerNum
  nodeNum := h.nodeNum.trans hs.nodeNum
  idx := by rw [h.position, h.idx, hs.idx]
  f := h.f.trans hs.f

lemma RaftEngine.Turn.settled (h : Turn E s ret s' sent) (hs : Settled n s) : Settled n s' := by
  cases h with
  | stay hb | lead _ hb | ask _ hb | winAlone _ _ hb | campaign hb | retreat _ hb | giveUp _ hb => exact hb.settled hs
  | rejected _ _ _ _ hb | grant _ _ _ hb | hear _ _ _ hb | count _ _ _ _ _ hb => exact hb.settled hs
  | win _ _ _ _ _ _ hb => exact hb.settled hs

lemma RaftEngine.Becomes.lastSeen {t : Nat} (h : Becomes s s' t r l) (hle : l ≤ t)
    (hlt : t < 2 ^ 32) (hcand : r = .EN_STATE_CANDIDATE → l < t)
    (hleader : r = .EN_STATE_LEADER → s'.loop = .runAsLeader → l = t) : s'.LastSeen ∧ s'.term < 2 ^ 32 := by
  refine ⟨⟨?_, fun hs => ?_, fun hs hloop => ?_⟩, ?_⟩
  · rw [h.term, h.lastLeaderTerm]
    exact hle
  · rw [h.term, h.lastLeaderTerm]
    exact hcand (h.state.symm.trans hs)
  · rw [h.term, h.lastLeaderTerm]
    exact hleader (h.state.symm.trans hs) hloop
  · rw [h.term]
    exact hlt

lemma RaftEngine.Turn.lastSeen (h : Turn E s ret s' sent) (hs : s.LastSeen) (hlt : s.term < 2 ^ 32)
    (hnext : s'.term = succTerm s.term → s.term + 1 < 2 ^ 32) (hret : ∀ p, ret = some p → p.Honest) :
    s'.LastSeen ∧ s'.term < 2 ^ 32 := by
  have hle := hs.le
  cases h with
  | stay hb _ hloop => exact hb.lastSeen hle hlt hs.candidate fun hl hl' => hs.leader hl (hloop hl')
  | lead hstate hb => exact hb.lastSeen le_rfl hlt (fun hc => (nomatch hc)) fun _ _ => rfl
  | ask hstate hb => exact hb.lastSeen hle hlt (fun _ => hs.candidate hstate) fun hl => (nomatch hl)
  | winAlone hstate _ hb hloop =>
    exact hb.lastSeen hle hlt (fun hc => (nomatch hc)) fun _ hl => (nomatch hloop.symm.trans hl)
  | campaign hb =>
    have hterm := hnext hb.term
    have hsucc : succTerm s.term = s.term + 1 := if_neg (by omega)
    rw [hsucc] at hb
    exact hb.lastSeen (by omega) hterm (fun _ => by omega) fun hl => (nomatch hl)
  | retreat hstate hb =>
    have hmore := hs.candidate hstate
    have hpred : predTerm s.term = s.term - 1 := if_neg (by omega)
    exact hb.lastSeen (by omega) (by omega) (fun hc => (nomatch hc)) fun hl => (nomatch hl)
  | giveUp hstate hb => exact hb.lastSeen hle hlt (fun hc => (nomatch hc)) fun hl => (nomatch hl)
  | rejected resp hr hflag => exact absurd hflag (hret _ hr)
  | grant req hr hlater hb =>
    obtain ⟨hreq, hreqlt⟩ := hret _ hr
    exact hb.lastSeen (by omega) hreqlt (fun hc => (nomatch hc)) fun hl => (nomatch hl)
  | hear heartbeat hr _ hb hstate =>
    refine hb.lastSeen le_rfl (hret _ hr) (fun hc => ?_) fun _ _ => rfl
    rcases hstate with rfl | ⟨rfl, hne, -⟩
    · cases hc
    · exact absurd hc hne
  | count _ _ _ _ hstate hb =>
    exact hb.lastSeen hle hlt (fun _ => hs.candidate hstate) fun hl => (nomatch hl)
  | win _ _ _ _ hstate _ hb hloop =>
    exact hb.lastSeen hle hlt (fun hc => (nomatch hc)) fun _ hl => (nomatch hloop.symm.trans hl)

lemma RaftEngine.Plain.honest_narrow (h : Plain p) : p.narrow.Honest ∧ ∀ req, p.narrow ≠ .voteReq req := by
  cases p with
  | voteReq => exact absurd h id
  | voteResp => exact ⟨h.2, fun req hreq => (nomatch hreq)⟩
  | heartBeat => exact ⟨mod_lt _ (by decide), fun req hreq => (nomatch hreq)⟩
  | heartBeatResp => exact ⟨trivial, fun req hreq => (nomatch hreq)⟩

lemma honest_voteReq (hstate : s.state = .EN_STATE_CANDIDATE) (hs : s.LastSeen) (hterm : s.term < 2 ^ 32) :
    (voteReq (s.generateVoteReq E)).narrow.Honest ∧
      ∀ req, (voteReq (s.generateVoteReq E)).narrow = .voteReq req → req.term = s.term := by
  have hlt := hs.candidate hstate
  have ht : narrowNat s.term = s.term := mod_eq_of_lt hterm
  have hl : narrowNat s.lastLeaderTerm = s.lastLeaderTerm := mod_eq_of_lt (by omega)
  constructor
  · change narrowNat s.lastLeaderTerm < narrowNat s.term ∧ narrowNat s.term < 2 ^ 32
    omega
  · intro req hreq
    obtain rfl := voteReq.inj hreq
    exact ht

lemma RaftEngine.Turn.sends (h : Turn E s ret s' sent) (hs : s.LastSeen) (hterm : s.term < 2 ^ 32)
    (hp : sent.broadcast = some p ∨ sent.response = some p) :
    p.narrow.Honest ∧ ∀ req, p.narrow = .voteReq req → req.term ≤ s'.node.reach := by
  have hplain : PlainSent sent → p.narrow.Honest ∧ ∀ req, p.narrow = .voteReq req → req.term ≤ s'.node.reach := by
    intro hsent
    have hpl : Plain p := hp.elim (hsent.broadcast p) (hsent.response p)
    exact ⟨hpl.honest_narrow.1, fun req hreq => absurd hreq (hpl.honest_narrow.2 req)⟩
  cases h with
  | stay _ _ _ hsent => exact hplain hsent
  | ask hstate hb =>
    obtain rfl : _ = p := hp.elim some.inj fun hnone => (nomatch hnone)
    obtain ⟨hhonest, hreq⟩ := honest_voteReq (E := E) hstate hs hterm
    refine ⟨hhonest, fun req h => ?_⟩
    rw [hreq req h, hb.node_candidate]
    exact le_rfl
  | winAlone hstate _ hb =>
    obtain rfl : _ = p := hp.elim some.inj fun hnone => (nomatch hnone)
    obtain ⟨hhonest, hreq⟩ := honest_voteReq (E := E) hstate hs hterm
    refine ⟨hhonest, fun req h => ?_⟩
    rw [hreq req h, hb.node_leader]
    exact le_succ _
  | grant req _ _ hb hbroadcast resp hresponse hflag =>
    rcases hp with hbr | hr
    · have hpl := (hbroadcast p hbr).honest_narrow
      exact ⟨hpl.1, fun req hreq => absurd hreq (hpl.2 req)⟩
    cases hresponse.symm.trans hr
    refine ⟨?_, fun req hreq => (nomatch hreq)⟩
    change resp.voteFlag ≠ _
    rw [hflag]
    exact VoteRespFlag.noConfusion
  | hear _ _ _ _ _ hsent => exact hplain hsent
  | _ => exact hplain plainSent_nil

lemma Pops.sender_ne (hs : net.Sound) (hpop : Pops net k ret sender rest) {j : Fin n} (hj : sender = some j) : k ≠ j := by
  cases hpop with
  | nothing => cases hj
  | packet e hk hperm =>
    cases hj
    exact hk ▸ (hs.mail e (hperm.mem_iff.mpr mem_cons_self)).ne.symm

section

variable (hpop : Pops net k ret sender rest) (hturn : Turn E (net.nodes k) ret s' sent)
  (hsafe : (net.nodes k).SafePacket ret)
  (hnext : s'.term = succTerm (net.nodes k).term → (net.nodes k).term + 1 < 2 ^ 32)

include hpop hturn hsafe hnext

lemma sound_act (hs : net.Sound) : (net.act k sender rest (s', sent)).Sound := by
  obtain ⟨hlast, hterm⟩ := hturn.lastSeen (hs.lastSeen k) (hs.term k) hnext fun p hp =>
    (hpop.mailed hs hp).choose_spec.2.2.1
  have hreach := reach_le_of_steps (act_steps hs hpop hturn hsafe)
  refine ⟨?_, ?_, ?_, fun e he => ?_⟩
  · exact (forall_update_iff _ fun _ s => Settled n s).mpr ⟨hturn.settled (hs.settled k), fun j _ => hs.settled j⟩
  · exact (forall_update_iff _ fun _ (s : RaftEngine) => s.term < 2 ^ 32).mpr ⟨hterm, fun j _ => hs.term j⟩
  · exact (forall_update_iff _ fun _ (s : RaftEngine) => s.LastSeen).mpr ⟨hlast, fun j _ => hs.lastSeen j⟩
  · rcases mem_append.mp he with hold | hnew
    · have hmail := hs.mail e (hpop.mem_of_mem hold)
      exact ⟨hmail.ne, hmail.honest, fun req hreq => (hmail.reach req hreq).trans (hreach _)⟩
    obtain ⟨hk, p, hp, hsrc⟩ := mem_deliver hnew
    have hsent : sent.broadcast = some p ∨ sent.response = some p := hsrc.imp And.left And.left
    obtain ⟨hhonest, hreq⟩ := hturn.sends (hs.lastSeen k) (hs.term k) hsent
    refine ⟨?_, hp ▸ hhonest, fun req h => ?_⟩
    · rw [hk]
      exact hsrc.elim (fun hb => hb.2.symm) fun hr => hpop.sender_ne hs hr.2
    have hnode : (net.act k sender rest (s', sent)).election.nodes k = s'.node := by
      rw [election_act]
      exact State.nodes_set_self _ k _
    rw [hk, hnode]
    exact hreq req (hp ▸ h)

lemma safe_act (hs : net.Safe) : (net.act k sender rest (s', sent)).Safe := by
  have hsteps := act_steps hs.toSound hpop hturn hsafe
  refine ⟨sound_act hpop hturn hsafe hnext hs.toSound, ?_, ?_⟩
  · exact invariant_of_small _ (fun _ _ hstep h => h.step hstep) hsteps hs.election
  · exact invariant_of_small _ (fun _ _ hstep h => h.step hstep) hsteps hs.leads

end

end

lemma safe_act_same (hs : net.Safe)
    (hsame : Becomes (net.nodes k) s' (net.nodes k).term (net.nodes k).state (net.nodes k).lastLeaderTerm)
    (hloop : s'.loop = (net.nodes k).loop ∨ s'.loop = .workLoop) : (net.act k none net.inFlight (s', {})).Safe := by
  apply safe_act (E := Symbolic.env) .nothing (.stay hsame ?_ ?_ plainSent_nil) trivial ?_ hs
  · unfold votes
    rcases hloop with h | h <;> simp [h]
  · intro hl
    rcases hloop with h | h
    · exact h ▸ hl
    · cases h.symm.trans hl
  · rw [hsame.term]
    unfold succTerm
    split <;> omega

lemma popped_spec {timeout : Bool} {pop : Option Nat} {i : Nat} {e : RaftEnvelope n}
    (h : net.popped k timeout pop = some (i, e)) :
    Pops net k (some e.packet) (some e.sender) (net.inFlight.eraseIdx i) := by
  unfold RaftNet.popped at h
  split at h
  · obtain ⟨i', -, hmap⟩ := bind_eq_some_iff.mp h
    obtain ⟨e', harr, heq⟩ := map_eq_some_iff.mp hmap
    cases heq
    obtain ⟨hget, hk⟩ := filter_eq_some_iff.mp harr
    obtain ⟨hlt, rfl⟩ := List.getElem?_eq_some_iff.mp hget
    exact .packet _ (of_decide_eq_true hk) (getElem_cons_eraseIdx_perm hlt).symm
  · cases h

lemma safe_step (hs : net.Safe) {e : RaftEvent n} (hsafe : net.ElectionSafe e) : (net.step E e).Safe := by
  cases e with
  | turn k timeout beat =>
    obtain ⟨hterm, hpacket⟩ := hsafe
    have hturn := turn_cases (E := E) (hs.settled k) timeout beat
    unfold RaftNet.step
    dsimp only
    split
    · rename_i hpop
      rw [hpop] at hpacket
      exact safe_act .nothing (hturn none) hpacket (fun _ => hterm) hs
    · rename_i i env hpop
      rw [hpop] at hpacket
      exact safe_act (popped_spec hpop) (hturn _) hpacket (fun _ => hterm) hs
  | syncing =>
    apply safe_act_same hs
    · unfold syncing
      split <;> exact ⟨rfl, rfl, rfl, rfl, rfl, rfl, rfl, rfl⟩
    unfold syncing
    split
    · exact .inl rfl
    · exact .inr rfl
  | chain =>
    exact safe_act_same hs ⟨rfl, rfl, rfl, rfl, rfl, rfl, rfl, rfl⟩ (.inl rfl)
  | reportBlock k chain =>
    have hset : Settled n { net.nodes k with chain := chain } :=
      ⟨(hs.settled k).sealerNum, (hs.settled k).nodeNum, (hs.settled k).idx, (hs.settled k).f⟩
    unfold RaftNet.step
    dsimp only
    rw [resetConfig_eq hset]
    exact safe_act_same hs ⟨rfl, rfl, rfl, rfl, rfl, rfl, rfl, rfl⟩ (.inl rfl)
  | lose i =>
    have hmem : ∀ x ∈ net.inFlight.eraseIdx i, x ∈ net.inFlight := fun x => mem_of_mem_eraseIdx
    refine ⟨⟨hs.settled, hs.term, hs.lastSeen, fun x hx => ?_⟩, ?_, hs.leads⟩
    · have hmail := hs.mail x (hmem x hx)
      exact ⟨hmail.ne, hmail.honest, hmail.reach⟩
    · exact hs.election.lose fun c t => (eraseIdx_sublist _ _).countP_le

lemma safe_start {chain : Fin n → RaftChain} (hn : n < 2 ^ 16) : (RaftNet.start chain).Safe := by
  let s₀ (k : Fin n) : RaftEngine := { sealerNum := n, position := k, chain := chain k }
  have hnodes : ∀ k, Becomes { s₀ k with nodeNum := n, idx := k, f := (n - 1) / 2 }
      ((RaftNet.start chain).nodes k) 0 .EN_STATE_FOLLOWER 0 := by
    intro k
    have hnum : n % 2 ^ 16 = n := mod_eq_of_lt hn
    have hidx : k.val % 2 ^ 16 = k := mod_eq_of_lt (by omega)
    have hne : (s₀ k).sealerNum ≠ (s₀ k).nodeNum := by
      change n ≠ 0
      omega
    have hb := (resetConfig_of_ne (.inl hne)).1
    rw [hnum, hidx] at hb
    exact hb
  have hfollower : ∀ k, (RaftNet.start chain).election.nodes k = ⟨0, .follower⟩ := fun k =>
    (hnodes k).node_follower
  refine ⟨⟨fun k => (hnodes k).settled ⟨rfl, rfl, rfl, rfl⟩, fun k => ?_, fun k => ?_, fun e he => (nomatch he)⟩, ?_,
    fun i hi => ?_⟩
  · rw [(hnodes k).term]
    decide
  · exact ((hnodes k).lastSeen le_rfl (by decide) (fun h => (nomatch h)) fun _ _ => rfl).1
  · refine ⟨fun v hv => (nomatch hv), fun v hv => (nomatch hv), .nil, fun _ _ => le_rfl,
      fun i v hrole => ?_, fun v hv => (nomatch hv)⟩
    rw [hfollower] at hrole
    cases hrole
  · rw [hfollower] at hi
    cases hi

section

/-- More sealers than a `uint16_t` can count: `resetConfig` makes every node a follower whenever it looks, and none gets
to campaign. -/
structure RaftEngine.Idle (n : Nat) (s : RaftEngine) : Prop where
  sealerNum : s.sealerNum = n
  nodeNum : s.nodeNum < 2 ^ 16
  state : s.state ≠ .EN_STATE_LEADER
  candidate : s.state = .EN_STATE_CANDIDATE → s.loop = .workLoop

namespace RaftEngine.Idle

variable {s : RaftEngine}

lemma becomes {t : Nat} (h : Idle n s) (hb : Becomes s s' t r l)
    (hr : r ≠ .EN_STATE_LEADER) (hcand : r = .EN_STATE_CANDIDATE → s'.loop = .workLoop) : Idle n s' where
  sealerNum := hb.sealerNum.trans h.sealerNum
  nodeNum := hb.nodeNum ▸ h.nodeNum
  state hs := hr (hb.state.symm.trans hs)
  candidate hs := hcand (hb.state.symm.trans hs)

lemma resetConfig (hn : 2 ^ 16 ≤ n) (h : Idle n s) :
    Idle n s.resetConfig ∧ s.resetConfig.state = .EN_STATE_FOLLOWER := by
  have hne : s.sealerNum ≠ s.nodeNum ∨ s.position ≠ s.idx := by
    left
    have := h.sealerNum
    have := h.nodeNum
    omega
  obtain ⟨hb, -⟩ := resetConfig_of_ne hne
  refine ⟨⟨hb.sealerNum.trans h.sealerNum, ?_, ?_, fun hs => (nomatch hb.state.symm.trans hs)⟩, hb.state⟩
  · rw [hb.nodeNum]
    exact mod_lt _ (by decide)
  · rw [hb.state]
    exact noConfusion

lemma leave (h : Idle n s) : Idle n s.leave :=
  ⟨h.sealerNum, h.nodeNum, h.state, fun _ => rfl⟩

lemma turn (hn : 2 ^ 16 ≤ n) (h : Idle n s) (timeout beat : Bool)
    (ret : Option RaftPacket) : Idle n (s.turn E timeout beat ret).1 := by
  obtain ⟨hreset, hstate⟩ := h.resetConfig hn
  by_cases hloop : s.loop = .workLoop
  · unfold RaftEngine.turn
    rw [hloop]
    unfold workLoop
    dsimp only
    rw [hstate]
    exact ⟨hreset.sealerNum, hreset.nodeNum, noConfusion, fun hs => (nomatch hs)⟩
  have hcand : s.state ≠ .EN_STATE_CANDIDATE := fun hs => hloop (h.candidate hs)
  rcases turn_moves (E := E) hloop with hturn | hturn
  · generalize (s.turn E timeout beat ret).2 = sent at hturn
    cases hturn with
    | stay hb => exact h.becomes hb h.state fun hs => absurd hs hcand
    | lead hstate => exact absurd hstate h.state
    | campaign hb _ hloop => exact h.becomes hb (by decide) fun _ => hloop
    | grant _ _ _ hb => exact h.becomes hb (by decide) fun hs => (nomatch hs)
    | hear _ _ _ hb hstate =>
      rcases hstate with rfl | ⟨rfl, hne, -⟩
      · exact h.becomes hb (by decide) fun hs => (nomatch hs)
      · exact h.becomes hb h.state fun hs => absurd hs hne
    | _ => exact absurd ‹_› hcand
  · rw [hturn]
    exact ⟨hreset.sealerNum, hreset.nodeNum, noConfusion, fun _ => rfl⟩

end RaftEngine.Idle

lemma idle_step (hn : 2 ^ 16 ≤ n) (h : ∀ k, Idle n (net.nodes k)) (e : RaftEvent n) (k : Fin n) :
    Idle n ((net.step E e).nodes k) := by
  have hact : ∀ {k sender rest} {r : RaftEngine × RaftSent}, Idle n r.1 →
      ∀ j, Idle n ((net.act k sender rest r).nodes j) := fun hr =>
    (forall_update_iff _ fun _ (s : RaftEngine) => Idle n s).mpr ⟨hr, fun j _ => h j⟩
  have hchain : ∀ k (chain : RaftChain), Idle n { net.nodes k with chain := chain } := fun k _ =>
    ⟨(h k).sealerNum, (h k).nodeNum, (h k).state, (h k).candidate⟩
  cases e with
  | turn i timeout beat =>
    unfold RaftNet.step
    dsimp only
    split
    · exact hact ((h i).turn hn timeout beat none) k
    · exact hact ((h i).turn hn timeout beat _) k
  | syncing i =>
    apply hact
    unfold syncing
    split
    · exact h i
    · exact (h i).leave
  | chain i chain => exact hact (hchain i chain) k
  | reportBlock i chain => exact hact ((hchain i chain).resetConfig hn).1 k
  | lose => exact h k

lemma idle_start (hn : 2 ^ 16 ≤ n) (chain : Fin n → RaftChain) (k : Fin n) :
    Idle n ((RaftNet.start chain).nodes k) := by
  have h : Idle n { sealerNum := n, position := k, chain := chain k } :=
    ⟨rfl, Nat.two_pow_pos 16, noConfusion, fun hs => (nomatch hs)⟩
  exact (h.resetConfig hn).1

end

/-- In every run whose turns are all safe, no two nodes lead one term. -/
theorem RaftNet.one_leader_of_electionSafe (E : Env) {n : Nat} (chain : Fin n → RaftChain) (es : List (RaftEvent n))
    (h : Along (RaftNet.step E) RaftNet.ElectionSafe (RaftNet.start chain) es) :
    let net := run (RaftNet.step E) (RaftNet.start chain) es
    ∀ i j, (net.nodes i).state = .EN_STATE_LEADER → (net.nodes j).state = .EN_STATE_LEADER →
      (net.nodes i).term = (net.nodes j).term → i = j := by
  intro net i j hi hj hterm
  by_cases hn : n < 2 ^ 16
  · have hsafe : net.Safe := invariant_run (fun net : RaftNet n => net.Safe)
      (fun _ _ hcond hs => safe_step hs hcond) (safe_start hn) h
    refine hsafe.election.leader_unique hsafe.leads ?_ (role_leader hi) (role_leader hj) hterm
    rw [Fintype.card_fin]
    have := i.isLt
    unfold raftQuorum
    omega
  · have hidle : ∀ k, Idle n (net.nodes k) := invariant_run (fun net : RaftNet n => ∀ k, Idle n (net.nodes k))
        (fun _ e _ hs => idle_step (not_lt.mp hn) hs e) (idle_start (not_lt.mp hn) chain) h
    exact absurd hi (hidle i).state

/-- A leader has the votes of more than half of the nodes in its term. -/
theorem RaftNet.leader_of_majority (E : Env) {n : Nat} (hn : n < 2 ^ 16) (chain : Fin n → RaftChain)
    (es : List (RaftEvent n)) (h : Along (RaftNet.step E) RaftNet.ElectionSafe (RaftNet.start chain) es) (i : Fin n) :
    let net := run (RaftNet.step E) (RaftNet.start chain) es
    (net.nodes i).state = .EN_STATE_LEADER →
      ∃ voters : Finset (Fin n), n < 2 * voters.card ∧ ∀ k ∈ voters, ⟨k, i, (net.nodes i).term⟩ ∈ net.votes := by
  intro net hi
  have hsafe : net.Safe := invariant_run (fun net : RaftNet n => net.Safe)
    (fun _ _ hcond hs => safe_step hs hcond) (safe_start hn) h
  have hwon := hsafe.election.won _ (hsafe.leads i (role_leader hi)) rfl
  rw [← hsafe.election.card_voters] at hwon
  refine ⟨net.election.voters i (net.nodes i).term, ?_, ?_⟩
  · have := i.isLt
    change n - (n - 1) / 2 ≤ (net.election.voters i (net.nodes i).term).card at hwon
    omega
  · intro k hk
    obtain ⟨v, hv, rfl, rfl, hterm⟩ := State.mem_voters.mp hk
    rw [← hterm]
    exact hv

variable (k : Fin 3)

namespace Symbolic

def raftTurn : RaftEvent 3 :=
  .turn k false false none

def raftTimeout : RaftEvent 3 :=
  .turn k true false none

def raftPop (i : Nat) : RaftEvent 3 :=
  .turn k false false (some i)

/-- Node 0 collects first votes, is granted term 1 by both others, times out before their answers arrive, campaigns for
term 1 again and wins with the answer of node 1. -/
def firstElection : List (RaftEvent 3) :=
  [raftTurn 0, raftTimeout 0, raftTurn 0, raftTurn 1, raftPop 1 0, raftTurn 2, raftPop 2 0, raftPop 0 0,
    raftPop 0 0, raftTurn 0, raftTimeout 0, raftTurn 0, raftPop 1 0, raftPop 2 0, raftTimeout 0,
    raftTurn 0, raftTimeout 0, raftTurn 0, raftPop 0 0]

/-- It loses its followers, campaigns for term 2 and counts the answer of node 2 for term 1; node 1 campaigns for term 2
as well and is granted it by node 2. -/
def secondElection : List (RaftEvent 3) :=
  [raftTurn 0, raftTimeout 0, raftTurn 0, raftPop 0 0, raftTurn 1, raftTimeout 1, raftTurn 1, raftTurn 2,
    raftPop 2 5, raftPop 1 5]

theorem one_leader_of_electionSafe_of_firstElection :
    let net := run (RaftNet.step env) (RaftNet.start fun _ => {}) firstElection
    (net.nodes 0).state = .EN_STATE_LEADER ∧ ∀ j, (net.nodes j).state = .EN_STATE_LEADER →
      (net.nodes 0).term = (net.nodes j).term → 0 = j := by
  refine ⟨by decide +kernel, fun j hj hterm => ?_⟩
  exact RaftNet.one_leader_of_electionSafe env (fun _ => {}) firstElection (by decide +kernel) 0 j
    (by decide +kernel) hj hterm

theorem leader_of_majority_of_firstElection :
    let net := run (RaftNet.step env) (RaftNet.start fun _ => {}) firstElection
    ∃ voters : Finset (Fin 3), 3 < 2 * voters.card ∧ ∀ k ∈ voters, ⟨k, 0, (net.nodes 0).term⟩ ∈ net.votes :=
  RaftNet.leader_of_majority env (by decide) (fun _ => {}) firstElection (by decide +kernel) 0 (by decide +kernel)

/-- After node 0 was granted term 1 it wins with the first answer and sends a heartbeat. Node 1 wins term 2 with the
vote of node 2, which then hears the heartbeat of term 1, goes back to that term and grants term 2 to node 0 as well. -/
def lateHeartbeat : List (RaftEvent 3) :=
  firstElection.take 14 ++
    [raftPop 0 0, raftTurn 0, .turn 0 false true none, raftTurn 1, raftTimeout 1, raftTurn 1, raftTurn 2,
      raftPop 2 4, raftPop 1 4, raftTurn 2, raftPop 2 2, raftTimeout 0, raftTurn 0, raftPop 2 5,
      raftPop 0 5]

def TwoLeaders (net : RaftNet 3) : Prop :=
  (net.nodes 0).state = .EN_STATE_LEADER ∧ (net.nodes 1).state = .EN_STATE_LEADER ∧
    (net.nodes 0).term = (net.nodes 1).term

instance (net : RaftNet 3) : Decidable (TwoLeaders net) :=
  inferInstanceAs (Decidable (_ ∧ _ ∧ _))

theorem not_one_leader : TwoLeaders (run (RaftNet.step env) (RaftNet.start fun _ => {})
      (firstElection ++ secondElection)) ∧
    TwoLeaders (run (RaftNet.step env) (RaftNet.start fun _ => {}) lateHeartbeat) := by
  decide +kernel

end Symbolic

end FiscoBcos
