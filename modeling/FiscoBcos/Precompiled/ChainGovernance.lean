import FiscoBcos.Lib.Rounding
import FiscoBcos.Precompiled.PermissionPrecompiled

/-!
# The governance contract

`libprecompiled/ChainGovernancePrecompiled.cpp` on the rows of `_sys_table_access_` and of `_sys_committee_votes_`, which
holds votes, weights and the threshold. Freezing of accounts is left out.
-/

namespace FiscoBcos

def CODE_CURRENT_VALUE_IS_EXPECTED_VALUE : Int := -52012

def CODE_OPERATOR_NOT_EXIST : Int := -52007

def CODE_OPERATOR_EXIST : Int := -52006

def CODE_INVALID_THRESHOLD : Int := -52003

def CODE_INVALID_REQUEST_PERMISSION_DENIED : Int := -52002

def CODE_COMMITTEE_MEMBER_NOT_EXIST : Int := -52001

def CODE_COMMITTEE_MEMBER_EXIST : Int := -52000

/-- The texts in the field `value`: two words, a whole number, and a number of hundredths as `to_string` writes it. -/
inductive CommitteeValue where
  | grant
  | revoke
  | weight (n : Int)
  | threshold (percent : Nat)
deriving DecidableEq

/-- A row of `_sys_committee_votes_`. Only votes have the field `block_limit`. `stamp` is not part of the source: it is
the number of the call that wrote the vote. -/
structure CommitteeRow where
  value : CommitteeValue
  origin : Str := []
  blockLimit : Option Int := none
  stamp : Nat := 0
deriving DecidableEq

inductive Proposal where
  | grantCommitteeMember (user : Str)
  | revokeCommitteeMember (user : Str)
  | updateCommitteeMemberWeight (user : Str) (weight : Int)
  | updateThreshold (percent : Nat)
deriving DecidableEq

def CGP_WEIGTH_SUFFIX : Str := "_weight".toList

def CGP_UPDATE_WEIGTH_SUFFIX : Str := "_update_weight".toList

def CGP_AUTH_THRESHOLD : Str := "auth_threshold".toList

def CGP_UPDATE_AUTH_THRESHOLD : Str := "update_auth_threshold".toList

def Proposal.key : Proposal → Str
  | .grantCommitteeMember user => user
  | .revokeCommitteeMember user => user
  | .updateCommitteeMemberWeight user _ => user ++ CGP_UPDATE_WEIGTH_SUFFIX
  | .updateThreshold _ => CGP_UPDATE_AUTH_THRESHOLD

def Proposal.value : Proposal → CommitteeValue
  | .grantCommitteeMember _ => .grant
  | .revokeCommitteeMember _ => .revoke
  | .updateCommitteeMemberWeight _ weight => .weight weight
  | .updateThreshold percent => .threshold percent

/-- A proposal that took effect, the block below the one in which it did, and the stamps of the votes that were
counted. -/
structure Enactment where
  proposal : Proposal
  number : Int
  counted : List Nat
deriving DecidableEq

/-- The two tables. `calls` and `enacted` are not part of the source: the first one counts the calls, the second one
lists what took effect, the last one first. -/
structure Governance where
  access : AccessTable := {}
  committee : Option (KeyedRows Str CommitteeRow) := none
  calls : Nat := 0
  enacted : List Enactment := []

namespace ChainGovernancePrecompiled

def c_voteValidLimit : Int := 10000

/-- A number as a `double`. Weights have 256 bits, so that the exponents stay in range. -/
def toDouble (x : Rat) : Rat :=
  Rounding.toPrecision 53 x

def castDouble : CommitteeValue → Option Rat
  | .weight n => some (toDouble n)
  | .threshold percent => some (toDouble (percent / 100))
  | _ => none

/-- `votes / total > threshold` for doubles, of which the quotient may be infinite or not a number. -/
def quotientExceeds (votes total threshold : Rat) : Bool :=
  if total = 0 then 0 < votes else threshold < toDouble (votes / total)

section

variable (number : Int) (key : Str) (value : CommitteeValue) (table : KeyedRows Str CommitteeRow)

def recordVote (stamp : Nat) (origin : Str) : KeyedRows Str CommitteeRow :=
  let entry : CommitteeRow := ⟨value, origin, some (number + c_voteValidLimit), stamp⟩
  let table :=
    if (table key).any fun row => row.origin = origin then table.update key (fun row => row.origin = origin) fun _ => entry
    else table.insert key entry
  table.remove key fun row => row.blockLimit.any (· ≤ number)

def countedVotes (blockNumber : Int) : List CommitteeRow :=
  (table key).filter fun row => row.value = value ∧ row.blockLimit.any (blockNumber ≤ ·)

def memberWeight (member : Str) : Option Rat :=
  (table (member ++ CGP_WEIGTH_SUFFIX)).head?.bind fun row => castDouble row.value

def memberWeights : List AccessRow → Option (List (Str × Rat))
  | [] => some []
  | entry :: entries =>
    (memberWeight table entry.address).bind fun weight => (memberWeights entries).map ((entry.address, weight) :: ·)

def currentThreshold : Option Rat :=
  match table CGP_AUTH_THRESHOLD with
  | [] => some (1 / 2)
  | row :: _ => castDouble row.value

def validate (access : AccessTable) (blockNumber : Int) : Option Bool :=
  let entries := (access.rows SYS_ACCESS_TABLE).filter fun row => row.enableNum ≤ blockNumber
  if entries = [] then some true
  else
    (memberWeights table entries).bind fun weights => (currentThreshold table).map fun threshold =>
      let total := weights.foldl (fun sum w => toDouble (sum + w.2)) 0
      let totalVotes := (countedVotes key value table blockNumber).foldl
        (fun sum vote => toDouble (sum + (weights.lookup vote.origin).getD 0)) 0
      quotientExceeds totalVotes total threshold

/-- Nobody is given the right to write this table, so that everybody has it. -/
def deleteUsedVotes : KeyedRows Str CommitteeRow :=
  table.remove key fun row => row.value = value

end

section

variable (t : AccessTable) (account : Str)

def isOperator : Bool :=
  t.select SYS_TABLES account ≠ [] ∧ t.select SYS_CNS account ≠ []

def hasOperatorPermissions : Bool :=
  t.select SYS_TABLES account ≠ [] ∨ t.select SYS_CNS account ≠ []

def grantTablePermission (tableName : Str) (origin : H160) : Int × AccessTable :=
  if t.select tableName account ≠ [] then (1, t) else t.insert tableName account ⟨origin.bytes, true⟩

def revokeTablePermission (tableName : Str) (origin : H160) : Int × AccessTable :=
  t.remove tableName account ⟨origin.bytes, true⟩

end

variable (s : Governance) (origin : H160)

def getCommitteeTable : KeyedRows Str CommitteeRow :=
  s.committee.getD (KeyedRows.insert (fun _ => []) CGP_AUTH_THRESHOLD { value := .threshold 50 })

variable (table : KeyedRows Str CommitteeRow)

def enactAccess : Proposal → Int × AccessTable
  | .grantCommitteeMember user =>
    let granted := s.access.insert SYS_ACCESS_TABLE user { check := false }
    let access := (grantTablePermission granted.2 user SYS_CONFIG origin).2
    (granted.1, (grantTablePermission access user SYS_CONSENSUS origin).2)
  | .revokeCommitteeMember user =>
    let revoked := s.access.remove SYS_ACCESS_TABLE user { check := false }
    let access := (revokeTablePermission revoked.2 user SYS_CONFIG origin).2
    (revoked.1, (revokeTablePermission access user SYS_CONSENSUS origin).2)
  | .updateCommitteeMemberWeight user _ =>
    ((table (user ++ CGP_WEIGTH_SUFFIX)).length, s.access)
  | .updateThreshold _ => ((table CGP_AUTH_THRESHOLD).length, s.access)

/-- The rows of the committee table then. The votes on a threshold are looked for under another key than theirs. -/
def enactCommittee : Proposal → KeyedRows Str CommitteeRow
  | .grantCommitteeMember user =>
    deleteUsedVotes user .grant
      (table.insert (user ++ CGP_WEIGTH_SUFFIX) { value := .weight 1, origin := origin.hexPrefixed })
  | .revokeCommitteeMember user =>
    deleteUsedVotes user .revoke (table.remove (user ++ CGP_WEIGTH_SUFFIX) fun _ => true)
  | .updateCommitteeMemberWeight user weight =>
    deleteUsedVotes (user ++ CGP_UPDATE_WEIGTH_SUFFIX) (.weight weight)
      (table.update (user ++ CGP_WEIGTH_SUFFIX) (fun _ => true) fun row =>
        { row with value := .weight weight, origin := origin.hexPrefixed })
  | .updateThreshold percent =>
    deleteUsedVotes (CGP_UPDATE_AUTH_THRESHOLD ++ CGP_WEIGTH_SUFFIX) (.threshold percent)
      (table.update CGP_AUTH_THRESHOLD (fun _ => true) fun row =>
        { row with value := .threshold percent, origin := origin.hexPrefixed })

def recorded (p : Proposal) : KeyedRows Str CommitteeRow :=
  recordVote s.access.number p.key p.value (getCommitteeTable s) s.calls origin.hexPrefixed

def verifyAndRecord (p : Proposal) : Option (Int × Governance) :=
  if s.access.select SYS_ACCESS_TABLE origin.hexPrefixed = [] then some (CODE_INVALID_REQUEST_PERMISSION_DENIED, s)
  else
    let table := recorded s origin p
    let currentBlockNumber := s.access.number + 1
    (validate p.key p.value table s.access currentBlockNumber).map fun valid =>
      if valid then
        let changed := enactAccess s origin table p
        let counted := (countedVotes p.key p.value table currentBlockNumber).map CommitteeRow.stamp
        (changed.1, { s with
          access := changed.2
          committee := some (enactCommittee origin table p)
          enacted := ⟨p, s.access.number, counted⟩ :: s.enacted })
      else (0, { s with committee := some table })

def grantFirstMember (member : Str) : Int × Governance :=
  let granted := grantTablePermission s.access member SYS_ACCESS_TABLE origin
  let access := (grantTablePermission granted.2 member SYS_CONFIG origin).2
  let access := (grantTablePermission access member SYS_CONSENSUS origin).2
  let table := (getCommitteeTable s).insert (member ++ CGP_WEIGTH_SUFFIX)
    { value := .weight 1, origin := origin.hexPrefixed }
  (granted.1, { s with
    access := access
    committee := some table
    enacted := if granted.1 = CODE_NO_AUTHORIZED then s.enacted
      else ⟨.grantCommitteeMember member, s.access.number, []⟩ :: s.enacted })

def grantCommitteeMember (member : Str) : Option (Int × Governance) :=
  if hasOperatorPermissions s.access member then some (CODE_OPERATOR_CANNOT_BE_COMMITTEE_MEMBER, s)
  else if s.access.rows SYS_ACCESS_TABLE = [] then some (grantFirstMember s origin member)
  else if s.access.select SYS_ACCESS_TABLE member ≠ [] then some (CODE_COMMITTEE_MEMBER_EXIST, s)
  else verifyAndRecord s origin (.grantCommitteeMember member)

def revokeCommitteeMember (member : Str) : Option (Int × Governance) :=
  if s.access.select SYS_ACCESS_TABLE member = [] then some (CODE_COMMITTEE_MEMBER_NOT_EXIST, s)
  else verifyAndRecord s origin (.revokeCommitteeMember member)

def updateCommitteeMemberWeight (member : Str) (weight : Int) : Option (Int × Governance) :=
  if s.access.select SYS_ACCESS_TABLE member = [] then some (CODE_COMMITTEE_MEMBER_NOT_EXIST, s)
  else
    let table := getCommitteeTable s
    let s := { s with committee := some table }
    if (table (member ++ CGP_WEIGTH_SUFFIX)).any fun row => row.value = .weight weight then
      some (CODE_CURRENT_VALUE_IS_EXPECTED_VALUE, s)
    else verifyAndRecord s origin (.updateCommitteeMemberWeight member weight)

def updateThreshold (weight : Int) : Option (Int × Governance) :=
  if 99 < weight ∨ weight < 0 then some (CODE_INVALID_THRESHOLD, s)
  else
    let table := getCommitteeTable s
    let s := { s with committee := some table }
    if (table CGP_AUTH_THRESHOLD).any fun row => row.value = .threshold weight.toNat then
      some (CODE_CURRENT_VALUE_IS_EXPECTED_VALUE, s)
    else verifyAndRecord s origin (.updateThreshold weight.toNat)

def grantOperator (user : Str) : Option (Int × Governance) :=
  if s.access.select SYS_ACCESS_TABLE origin.hexPrefixed = [] then some (CODE_INVALID_REQUEST_PERMISSION_DENIED, s)
  else if s.access.select SYS_ACCESS_TABLE user ≠ [] then some (CODE_COMMITTEE_MEMBER_CANNOT_BE_OPERATOR, s)
  else if isOperator s.access user then some (CODE_OPERATOR_EXIST, s)
  else
    let tables := grantTablePermission s.access user SYS_TABLES origin
    if tables.1 = CODE_NO_AUTHORIZED then none
    else
      let cns := grantTablePermission tables.2 user SYS_CNS origin
      if cns.1 = CODE_NO_AUTHORIZED then none else some (cns.1, { s with access := cns.2 })

def revokeOperator (user : Str) : Option (Int × Governance) :=
  if s.access.select SYS_ACCESS_TABLE origin.hexPrefixed = [] then some (CODE_INVALID_REQUEST_PERMISSION_DENIED, s)
  else if s.access.select SYS_TABLES user = [] then some (CODE_OPERATOR_NOT_EXIST, s)
  else
    let tables := revokeTablePermission s.access user SYS_TABLES origin
    some (tables.1, { s with access := (revokeTablePermission tables.2 user SYS_CNS origin).2 })

/-- The last two are the queries that open the committee table, and all other functions. -/
inductive Call where
  | grantCommitteeMember (user : H160)
  | revokeCommitteeMember (user : H160)
  | updateCommitteeMemberWeight (user : H160) (weight : Int)
  | updateThreshold (weight : Int)
  | grantOperator (user : H160)
  | revokeOperator (user : H160)
  | query
  | other
deriving DecidableEq

def call (c : Call) : Option (Int × Governance) :=
  if s.access.authorizedAddress = none then none
  else
    match c with
    | .grantCommitteeMember user => grantCommitteeMember s origin user.hexPrefixed
    | .revokeCommitteeMember user => revokeCommitteeMember s origin user.hexPrefixed
    | .updateCommitteeMemberWeight user weight => updateCommitteeMemberWeight s origin user.hexPrefixed weight
    | .updateThreshold weight => updateThreshold s origin weight
    | .grantOperator user => grantOperator s origin user.hexPrefixed
    | .revokeOperator user => revokeOperator s origin user.hexPrefixed
    | .query => some (0, { s with committee := some (getCommitteeTable s) })
    | .other => some (0, s)

end ChainGovernancePrecompiled

namespace Governance

inductive Event where
  | permission (origin : H160) (c : PermissionPrecompiled.Call)
  | governance (origin : H160) (c : ChainGovernancePrecompiled.Call)
  | commitBlock

def step (version : Nat) (s : Governance) : Event → Governance
  | .permission origin c =>
    { s with access := ((PermissionPrecompiled.call version s.access origin c).map Prod.snd).getD s.access }
  | .governance origin c =>
    let s' := ((ChainGovernancePrecompiled.call s origin c).map Prod.snd).getD s
    { s' with calls := s.calls + 1 }
  | .commitBlock => { s with access := s.access.commitBlock }

end Governance

end FiscoBcos
