import FiscoBcos.Lib.KeyedRows
import FiscoBcos.Precompiled.SystemTables
import FiscoBcos.Storage.HexText

/-!
# The permission contract

`libprecompiled/PermissionPrecompiled.cpp` on the rows of `_sys_table_access_`. Calls compare the accounts of rows as
texts; the tables that are opened compare them as addresses.
-/

namespace FiscoBcos

def V2_2_0 : Nat := 0x02020000

def V2_5_0 : Nat := 0x02050000

def V2_6_0 : Nat := 0x02060000

def CODE_COMMITTEE_MEMBER_CANNOT_BE_OPERATOR : Int := -52005

def CODE_OPERATOR_CANNOT_BE_COMMITTEE_MEMBER : Int := -52004

def CODE_COMMITTEE_PERMISSION : Int := -51004

def CODE_CONTRACT_NOT_EXIST : Int := -51003

def CODE_TABLE_NAME_OVERFLOW : Int := -51002

def CODE_TABLE_AND_ADDRESS_NOT_EXIST : Int := -51001

def CODE_TABLE_AND_ADDRESS_EXIST : Int := -51000

def CODE_ADDRESS_INVALID : Int := -50102

structure AccessRow where
  address : Str
  enableNum : Int
deriving DecidableEq

/-- `_sys_table_access_` in a block on top of block `number`. The accounts that may write it are those of its own rows
when the block began; `none` if these rows could not be read, in which case the table cannot be opened. -/
structure AccessTable where
  rows : KeyedRows Str AccessRow := fun _ => []
  number : Int := 0
  authorizedAddress : Option (List Str) := some []

/-- `MemoryTableFactory2::setAuthorizedAddress` on the rows of a table. An exception is `none`. -/
def setAuthorizedAddress (blockNum : Int) : List AccessRow → Option (List Str)
  | [] => some []
  | row :: rows =>
    -- the range of stoi
    if -2147483648 ≤ row.enableNum ∧ row.enableNum ≤ 2147483647 then
      if row.enableNum ≤ blockNum then
        (toAddress row.address).bind fun address => (setAuthorizedAddress blockNum rows).map (address :: ·)
      else setAuthorizedAddress blockNum rows
    else none

def checkAuthority (authorizedAddress : List Str) (origin : Str) : Bool :=
  authorizedAddress.isEmpty || authorizedAddress.contains origin

namespace AccessTable

variable (t : AccessTable) (table address : Str)

def openedFor : Option (List Str) :=
  setAuthorizedAddress t.number (t.rows table)

def select : List AccessRow :=
  (t.rows table).filter fun row => row.address = address

variable (options : AccessOptions)

def allows : Bool :=
  !options.check || checkAuthority (t.authorizedAddress.getD []) options.origin

def insert : Int × AccessTable :=
  if t.allows options then (1, { t with rows := t.rows.insert table ⟨address, t.number + 1⟩ })
  else (CODE_NO_AUTHORIZED, t)

def remove : Int × AccessTable :=
  if t.allows options then
    ((t.select table address).length, { t with rows := t.rows.remove table fun row => row.address = address })
  else (CODE_NO_AUTHORIZED, t)

def commitBlock : AccessTable :=
  { t with
    number := t.number + 1
    authorizedAddress := setAuthorizedAddress (t.number + 1) (t.rows SYS_ACCESS_TABLE) }

end AccessTable

namespace PermissionPrecompiled

def USER_TABLE_NAME_MAX_LENGTH : Nat := 64

def getTableName (version : Nat) (name : Str) : Str :=
  if version < V2_2_0 then "_user_".toList ++ name else "u_".toList ++ name

def getContractTableName (contract : H160) : Str :=
  "c_".toList ++ toHex contract.bytes

def addPrefixToUserTable (version : Nat) (name : Str) : Str :=
  if name = SYS_ACCESS_TABLE ∨ name = SYS_CONSENSUS ∨ name = SYS_TABLES ∨ name = SYS_CNS ∨ name = SYS_CONFIG then name
  else getTableName version name

/-- The calls that change the table. The contract of `grantWrite` and `revokeWrite` may exist or not, and
`checkPermission` may accept the sender or not. The last one is any other function. -/
inductive Call where
  | insert (tableName addr : Str)
  | remove (tableName addr : Str)
  | grantWrite (contract user : H160) (exist permission : Bool)
  | revokeWrite (contract user : H160) (permission : Bool)
  | other

variable (version : Nat) (t : AccessTable) (origin : H160)

def lowered (addr : Str) : Str :=
  if V2_5_0 ≤ version then toLower addr else addr

variable (tableName : Str)

def insert (addr : Str) : Int × AccessTable :=
  let addr := lowered version addr
  if V2_5_0 ≤ version ∧ tableName = SYS_ACCESS_TABLE then (CODE_COMMITTEE_PERMISSION, t)
  else if V2_5_0 ≤ version ∧ t.select SYS_ACCESS_TABLE addr ≠ [] ∧ (tableName = SYS_TABLES ∨ tableName = SYS_CNS) then
    if V2_6_0 ≤ version then (CODE_COMMITTEE_MEMBER_CANNOT_BE_OPERATOR, t)
    else (CODE_OPERATOR_CANNOT_BE_COMMITTEE_MEMBER, t)
  else
    let tableName := addPrefixToUserTable version tableName
    if t.select tableName addr ≠ [] then (CODE_TABLE_AND_ADDRESS_EXIST, t)
    else if USER_TABLE_NAME_MAX_LENGTH < tableName.length then (CODE_TABLE_NAME_OVERFLOW, t)
    else if toAddress addr = none then (CODE_ADDRESS_INVALID, t)
    else t.insert tableName addr ⟨origin.bytes, true⟩

/-- `permission` is what `checkPermission` says of the sender. -/
def revokeWritePermission (user : Str) (isContractTable permission : Bool) : Int × AccessTable :=
  if t.select tableName user = [] then (CODE_TABLE_AND_ADDRESS_NOT_EXIST, t)
  else if V2_5_0 ≤ version ∧ isContractTable ∧ !permission then (CODE_NO_AUTHORIZED, t)
  else t.remove tableName user ⟨origin.bytes, !(decide (V2_6_0 ≤ version) && isContractTable)⟩

def remove (addr : Str) : Int × AccessTable :=
  let addr := lowered version addr
  if V2_5_0 ≤ version ∧ tableName = SYS_ACCESS_TABLE then (CODE_COMMITTEE_PERMISSION, t)
  else if V2_6_0 ≤ version ∧ t.select SYS_ACCESS_TABLE addr ≠ [] ∧
      (tableName = SYS_CONSENSUS ∨ tableName = SYS_CONFIG) then (CODE_NO_AUTHORIZED, t)
  else revokeWritePermission version t origin (addPrefixToUserTable version tableName) addr false true

def grantWrite (contract user : H160) (exist permission : Bool) : Int × AccessTable :=
  let addr := user.hexPrefixed
  let tableName := getContractTableName contract
  if t.select tableName addr ≠ [] then (CODE_TABLE_AND_ADDRESS_EXIST, t)
  else if USER_TABLE_NAME_MAX_LENGTH < tableName.length then (CODE_TABLE_NAME_OVERFLOW, t)
  else if !exist then (CODE_CONTRACT_NOT_EXIST, t)
  else if V2_5_0 ≤ version ∧ !permission then (CODE_NO_AUTHORIZED, t)
  else t.insert tableName addr ⟨origin.bytes, !decide (V2_6_0 ≤ version)⟩

def call (c : Call) : Option (Int × AccessTable) :=
  if t.authorizedAddress = none then none
  else
    some <| match c with
    | .insert tableName addr => insert version t origin tableName addr
    | .remove tableName addr => remove version t origin tableName addr
    | .grantWrite contract user exist permission => grantWrite version t origin contract user exist permission
    | .revokeWrite contract user permission =>
      revokeWritePermission version t origin (getContractTableName contract) user.hexPrefixed true permission
    | .other => (0, t)

end PermissionPrecompiled

end FiscoBcos
