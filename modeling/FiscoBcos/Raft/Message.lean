import FiscoBcos.Chain.WireFields

/-!
# Raft messages

`libconsensus/raft/Common.h`: the messages of the Raft engine and their codec.
-/

namespace FiscoBcos

open Rlp

variable (data rlp : List UInt8)

structure RaftMsg where
  idx : Nat := 0
  term : Nat := 0
  height : Int := 0
  blockHash : Hash := 0
deriving DecidableEq

structure RaftVoteReq extends RaftMsg where
  candidate : Nat := 0
  lastLeaderTerm : Nat := 0
  lastBlockNumber : Int := 0
deriving DecidableEq

/-- The enumeration has a byte for its values, and a decoded one may be none of those listed. -/
inductive VoteRespFlag where
  | VOTE_RESP_REJECT
  | VOTE_RESP_LEADER_REJECT
  | VOTE_RESP_LASTTERM_ERROR
  | VOTE_RESP_OUTDATED
  | VOTE_RESP_FIRST_VOTE
  | VOTE_RESP_DISCARD
  | VOTE_RESP_GRANTED
  | unknown (b : Nat)
deriving DecidableEq

def VoteRespFlag.toByte : VoteRespFlag → Nat
  | .VOTE_RESP_REJECT => 0
  | .VOTE_RESP_LEADER_REJECT => 1
  | .VOTE_RESP_LASTTERM_ERROR => 2
  | .VOTE_RESP_OUTDATED => 3
  | .VOTE_RESP_FIRST_VOTE => 4
  | .VOTE_RESP_DISCARD => 5
  | .VOTE_RESP_GRANTED => 6
  | .unknown b => b

def VoteRespFlag.ofByte : Nat → VoteRespFlag
  | 0 => .VOTE_RESP_REJECT
  | 1 => .VOTE_RESP_LEADER_REJECT
  | 2 => .VOTE_RESP_LASTTERM_ERROR
  | 3 => .VOTE_RESP_OUTDATED
  | 4 => .VOTE_RESP_FIRST_VOTE
  | 5 => .VOTE_RESP_DISCARD
  | 6 => .VOTE_RESP_GRANTED
  | b => .unknown b

structure RaftVoteResp extends RaftMsg where
  voteFlag : VoteRespFlag := .VOTE_RESP_REJECT
  lastLeaderTerm : Nat := 0
deriving DecidableEq

structure RaftHeartBeat extends RaftMsg where
  leader : Nat := 0
  uncommitedBlock : Bytes := []
  uncommitedBlockNumber : Int := 0
deriving DecidableEq

structure RaftHeartBeatResp extends RaftMsg where
  uncommitedBlockHash : Hash := 0
deriving DecidableEq

variable (m : RaftHeartBeatResp)

def RaftMsg.streamRLPFields (m : RaftMsg) : List (List UInt8) :=
  [appendUnsigned m.idx, appendUnsigned m.term, appendUnsigned m.height, appendBytes (hashBytes m.blockHash)]

def RaftVoteReq.streamRLPFields (m : RaftVoteReq) : List (List UInt8) :=
  m.toRaftMsg.streamRLPFields ++ [appendUnsigned m.candidate, appendUnsigned m.lastLeaderTerm,
    appendUnsigned m.lastBlockNumber]

def RaftVoteResp.streamRLPFields (m : RaftVoteResp) : List (List UInt8) :=
  m.toRaftMsg.streamRLPFields ++ [appendUnsigned m.voteFlag.toByte, appendUnsigned m.lastLeaderTerm]

def RaftHeartBeat.streamRLPFields (m : RaftHeartBeat) : List (List UInt8) :=
  m.toRaftMsg.streamRLPFields ++ [appendUnsigned m.leader, appendBytes (octets m.uncommitedBlock),
    appendUnsigned m.uncommitedBlockNumber]

def RaftHeartBeatResp.streamRLPFields : List (List UInt8) :=
  m.toRaftMsg.streamRLPFields ++ [appendBytes (hashBytes m.uncommitedBlockHash)]

def RaftMsg.populate : Option RaftMsg := do
  let idx ← (item rlp 0).bind (toInt 2)
  let term ← (item rlp 1).bind (toInt 8)
  let height ← (item rlp 2).bind toInt64
  let blockHash ← (item rlp 3).bind (toHash 32 true)
  return ⟨idx, term, height, blockHash⟩

def RaftVoteReq.populate : Option RaftVoteReq := do
  let m ← RaftMsg.populate rlp
  let candidate ← (item rlp 4).bind (toInt 2)
  let lastLeaderTerm ← (item rlp 5).bind (toInt 8)
  let lastBlockNumber ← (item rlp 6).bind toInt64
  return ⟨m, candidate, lastLeaderTerm, lastBlockNumber⟩

def RaftVoteResp.populate : Option RaftVoteResp := do
  let m ← RaftMsg.populate rlp
  let voteFlag ← (item rlp 4).bind (toInt 1)
  let lastLeaderTerm ← (item rlp 5).bind (toInt 8)
  return ⟨m, VoteRespFlag.ofByte voteFlag, lastLeaderTerm⟩

def RaftHeartBeat.populate : Option RaftHeartBeat := do
  let m ← RaftMsg.populate rlp
  let leader ← (item rlp 4).bind (toInt 2)
  let uncommitedBlock ← (item rlp 5).bind toBytes
  let uncommitedBlockNumber ← (item rlp 6).bind toInt64
  return ⟨m, leader, ofOctets uncommitedBlock, uncommitedBlockNumber⟩

-- this hash is read with the default strictness, so it may be shorter
def RaftHeartBeatResp.populate : Option RaftHeartBeatResp := do
  let m ← RaftMsg.populate rlp
  let uncommitedBlockHash ← (item rlp 4).bind (toHash 32 false)
  return ⟨m, uncommitedBlockHash⟩

def RaftMsg.encode (m : RaftMsg) : List UInt8 :=
  wrapFields m.streamRLPFields

def RaftVoteReq.encode (m : RaftVoteReq) : List UInt8 :=
  wrapFields m.streamRLPFields

def RaftVoteResp.encode (m : RaftVoteResp) : List UInt8 :=
  wrapFields m.streamRLPFields

def RaftHeartBeat.encode (m : RaftHeartBeat) : List UInt8 :=
  wrapFields m.streamRLPFields

def RaftHeartBeatResp.encode : List UInt8 :=
  wrapFields m.streamRLPFields

def RaftMsg.decode : Option RaftMsg :=
  (unwrapFields data).bind RaftMsg.populate

def RaftVoteReq.decode : Option RaftVoteReq :=
  (unwrapFields data).bind RaftVoteReq.populate

def RaftVoteResp.decode : Option RaftVoteResp :=
  (unwrapFields data).bind RaftVoteResp.populate

def RaftHeartBeat.decode : Option RaftHeartBeat :=
  (unwrapFields data).bind RaftHeartBeat.populate

def RaftHeartBeatResp.decode : Option RaftHeartBeatResp :=
  (unwrapFields data).bind RaftHeartBeatResp.populate

def narrowNat (n : Nat) : Nat :=
  n % 2 ^ 32

def narrowInt (v : Int) : Int :=
  v % 2 ^ 32

def RaftMsg.narrow (m : RaftMsg) : RaftMsg :=
  { m with term := narrowNat m.term, height := narrowInt m.height }

def RaftVoteReq.narrow (m : RaftVoteReq) : RaftVoteReq where
  toRaftMsg := m.toRaftMsg.narrow
  candidate := m.candidate
  lastLeaderTerm := narrowNat m.lastLeaderTerm
  lastBlockNumber := narrowInt m.lastBlockNumber

def RaftVoteResp.narrow (m : RaftVoteResp) : RaftVoteResp where
  toRaftMsg := m.toRaftMsg.narrow
  voteFlag := m.voteFlag
  lastLeaderTerm := narrowNat m.lastLeaderTerm

def RaftHeartBeat.narrow (m : RaftHeartBeat) : RaftHeartBeat where
  toRaftMsg := m.toRaftMsg.narrow
  leader := m.leader
  uncommitedBlock := m.uncommitedBlock
  uncommitedBlockNumber := narrowInt m.uncommitedBlockNumber

def RaftHeartBeatResp.narrow : RaftHeartBeatResp where
  toRaftMsg := m.toRaftMsg.narrow
  uncommitedBlockHash := m.uncommitedBlockHash

end FiscoBcos
