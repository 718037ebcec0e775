import FiscoBcos.Lib.Election
import FiscoBcos.Lib.Run
import FiscoBcos.Raft.Turns

/-!
# Raft elections

Packets are delayed, reordered and lost, but not duplicated. The network refines the election of `Lib/Election.lean` in
every step in which no vote of an earlier term is counted and no heartbeat takes a node back behind its votes.
-/

namespace FiscoBcos

open Election

variable (s : RaftEngine) (sent : RaftSent)

structure RaftEnvelope (n : Nat) where
  sender : Fin n
  receiver : Fin n
  packet : RaftPacket
deriving DecidableEq

/-- `votes` is no state of the nodes; it remembers each granted vote, and the vote of each node that won for itself. -/
structure RaftNet (n : Nat) where
  nodes : Fin n → RaftEngine
  inFlight : List (RaftEnvelope n) := []
  votes : List (Vote (Fin n)) := []

/-- A node takes a turn, popping the packet at a place of the list if it is for it; a node is found syncing; a block is
executed or committed by another thread; the network loses a packet. -/
inductive RaftEvent (n : Nat) where
  | turn (k : Fin n) (timeout beat : Bool) (pop : Option Nat)
  | syncing (k : Fin n)
  | chain (k : Fin n) (chain : RaftChain)
  | reportBlock (k : Fin n) (chain : RaftChain)
  | lose (i : Nat)
deriving DecidableEq

def RaftSent.deliver {n : Nat} (k : Fin n) (sender : Option (Fin n)) : List (RaftEnvelope n) :=
  (match sent.broadcast with
    | some p => ((List.finRange n).filter (· ≠ k)).map fun j => ⟨k, j, p.narrow⟩
    | none => []) ++
  match sent.response, sender with
  | some p, some j => [⟨k, j, p.narrow⟩]
  | _, _ => []

def RaftSent.cast {n : Nat} (k : Fin n) (sender : Option (Fin n)) (s s' : RaftEngine) : List (Vote (Fin n)) :=
  (match sent.response, sender with
    | some (.voteResp r), some j => if r.voteFlag = .VOTE_RESP_GRANTED then [⟨k, j, r.term⟩] else []
    | _, _ => []) ++
  if s'.state = .EN_STATE_LEADER ∧ s.state ≠ .EN_STATE_LEADER then [⟨k, k, s'.term⟩] else []

namespace RaftNet

variable {n : Nat} (E : Env) (net : RaftNet n) (k : Fin n)

def act (sender : Option (Fin n)) (rest : List (RaftEnvelope n)) (r : RaftEngine × RaftSent) : RaftNet n where
  nodes := Function.update net.nodes k r.1
  inFlight := rest ++ r.2.deliver k sender
  votes := r.2.cast k sender (net.nodes k) r.1 ++ net.votes

def arriving (i : Nat) : Option (RaftEnvelope n) :=
  (net.inFlight[i]?).filter (·.receiver = k)

def popped (timeout : Bool) (pop : Option Nat) : Option (Nat × RaftEnvelope n) :=
  if (net.nodes k).pops timeout then pop.bind fun i => (net.arriving k i).map fun e => (i, e) else none

def step : RaftEvent n → RaftNet n
  | .turn k timeout beat pop =>
    match net.popped k timeout pop with
    | none => net.act k none net.inFlight ((net.nodes k).turn E timeout beat none)
    | some (i, e) =>
      net.act k (some e.sender) (net.inFlight.eraseIdx i) ((net.nodes k).turn E timeout beat (some e.packet))
  | .syncing k => net.act k none net.inFlight ((net.nodes k).syncing, {})
  | .chain k chain => net.act k none net.inFlight ({ net.nodes k with chain := chain }, {})
  | .reportBlock k chain =>
    net.act k none net.inFlight ({ net.nodes k with chain := chain }.resetConfig, {})
  | .lose i => { net with inFlight := net.inFlight.eraseIdx i }

def start (chain : Fin n → RaftChain) : RaftNet n where
  nodes k := RaftEngine.resetConfig { sealerNum := n, position := k, chain := chain k }

end RaftNet

/-- A candidate counts no vote granted for an earlier term, and a heartbeat of a leader the node had not seen sets its
term back at most from a candidacy in the next term. -/
def RaftEngine.SafePacket : Option RaftPacket → Prop
  | some (.voteResp r) =>
    s.state = .EN_STATE_CANDIDATE → r.voteFlag = .VOTE_RESP_GRANTED → s.term ≤ r.term
  | some (.heartBeat hb) =>
    s.lastLeaderTerm < hb.term → s.term ≤ hb.term ∨ (s.state = .EN_STATE_CANDIDATE ∧ s.term ≤ hb.term + 1)
  | _ => True

instance (s : RaftEngine) : DecidablePred s.SafePacket
  | none => .isTrue trivial
  | some (.voteReq _) | some (.heartBeatResp _) => .isTrue trivial
  | some (.voteResp r) => inferInstanceAs
    (Decidable (s.state = .EN_STATE_CANDIDATE → r.voteFlag = .VOTE_RESP_GRANTED → s.term ≤ r.term))
  | some (.heartBeat hb) => inferInstanceAs (Decidable (s.lastLeaderTerm < hb.term →
      s.term ≤ hb.term ∨ (s.state = .EN_STATE_CANDIDATE ∧ s.term ≤ hb.term + 1)))

/-- A node takes a turn only with a term below 2^32 - 1, and pops only such packets. -/
def RaftNet.ElectionSafe {n : Nat} (net : RaftNet n) : RaftEvent n → Prop
  | .turn k timeout _ pop =>
    (net.nodes k).term + 1 < 2 ^ 32 ∧ (net.nodes k).SafePacket ((net.popped k timeout pop).map fun p => p.2.packet)
  | _ => True

instance {n : Nat} (net : RaftNet n) (e : RaftEvent n) : Decidable (net.ElectionSafe e) := by
  cases e <;> unfold RaftNet.ElectionSafe <;> infer_instance

section

def RaftEngine.role : Role :=
  match s.state with
  | .EN_STATE_LEADER => .leader
  | .EN_STATE_FOLLOWER => .follower
  | .EN_STATE_CANDIDATE => .candidate s.votes

def RaftEngine.node : Node :=
  ⟨s.term, s.role⟩

variable {n : Nat}

def RaftEnvelope.grants (c : Fin n) (t : Nat) (e : RaftEnvelope n) : Bool :=
  match e.packet with
  | .voteResp r => e.receiver = c ∧ r.voteFlag = .VOTE_RESP_GRANTED ∧ r.term = t
  | _ => false

def RaftNet.election (net : RaftNet n) : State (Fin n) where
  nodes k := (net.nodes k).node
  flying c t := net.inFlight.countP (RaftEnvelope.grants c t)
  votes := net.votes

end

end FiscoBcos
