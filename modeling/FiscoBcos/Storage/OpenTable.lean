import FiscoBcos.Storage.Rollback

/-!
# Opening and creating tables

`MemoryTableFactory2::openTable` and `createTable`. A table is registered by a row of `_sys_tables_`, which
the change log covers; the table itself stays in `name2Table`, which it does not cover.
-/

namespace FiscoBcos

variable (text : Str)

def SYS_TABLES : Str := "_sys_tables_".toList

def SYS_CONSENSUS : Str := "_sys_consensus_".toList

def SYS_CURRENT_STATE : Str := "_sys_current_state_".toList

def SYS_TX_HASH_2_BLOCK : Str := "_sys_tx_hash_2_block_".toList

def SYS_NUMBER_2_HASH : Str := "_sys_number_2_hash_".toList

def SYS_HASH_2_BLOCK : Str := "_sys_hash_2_block_".toList

def SYS_CNS : Str := "_sys_cns_".toList

def SYS_CONFIG : Str := "_sys_config_".toList

def SYS_ACCESS_TABLE : Str := "_sys_table_access_".toList

def SYS_BLOCK_2_NONCES : Str := "_sys_block_2_nonces_".toList

def SYS_HASH_2_BLOCKHEADER : Str := "_sys_hash_2_header_".toList

def sysTables : List Str :=
  [SYS_CONSENSUS, SYS_TABLES, SYS_ACCESS_TABLE, SYS_CURRENT_STATE, SYS_NUMBER_2_HASH, SYS_TX_HASH_2_BLOCK,
    SYS_HASH_2_BLOCK, SYS_CNS, SYS_CONFIG, SYS_BLOCK_2_NONCES, SYS_HASH_2_BLOCKHEADER]

def getSysTableInfo (name : Str) : TableInfo :=
  let info (key : String) (fields : List String) : TableInfo :=
    { name := name, key := key.toList, fields := fields.map String.toList }
  if name = SYS_CONSENSUS then info "name" ["type", "node_id", "enable_num"]
  else if name = SYS_TABLES then info "table_name" ["key_field", "value_field"]
  else if name = SYS_ACCESS_TABLE then info "table_name" ["address", "enable_num"]
  else if name = SYS_CURRENT_STATE then { info "key" ["value"] with enableConsensus := false }
  else if name = SYS_NUMBER_2_HASH then info "number" ["value"]
  else if name = SYS_TX_HASH_2_BLOCK then
    { info "hash" ["value", "index"] with enableConsensus := false, enableCache := false }
  else if name = SYS_HASH_2_BLOCK then { info "hash" ["value"] with enableConsensus := false }
  else if name = SYS_HASH_2_BLOCKHEADER then { info "hash" ["value", "sigs"] with enableConsensus := false }
  else if name = SYS_CNS then info "name" ["version", "address", "abi"]
  else if name = SYS_CONFIG then info "key" ["value", "enable_num"]
  else if name = SYS_BLOCK_2_NONCES then { info "number" ["value"] with enableConsensus := false }
  else info "" []

/-- `std::stoi`: the number at the beginning of a text. An exception is `none`. -/
def stoi : Option Int :=
  let text := text.dropWhile fun c => c = ' ' || (9 ≤ c.toNat && c.toNat ≤ 13)
  let (negative, text) : Bool × Str :=
    match text with
    | '-' :: rest => (true, rest)
    | '+' :: rest => (false, rest)
    | _ => (false, text)
  (digitsToNat (text.takeWhile Char.isDigit)).bind fun n =>
    let n : Int := if negative then -n else n
    if -2147483648 ≤ n ∧ n ≤ 2147483647 then some n else none

def fromHexChar (c : Char) : Option Nat :=
  if '0' ≤ c ∧ c ≤ '9' then some (c.toNat - '0'.toNat)
  else if 'a' ≤ c ∧ c ≤ 'f' then some (c.toNat - 'a'.toNat + 10)
  else if 'A' ≤ c ∧ c ≤ 'F' then some (c.toNat - 'A'.toNat + 10)
  else none

def hexPairs : Str → Option Str
  | [] => some []
  | [_] => none
  | h :: l :: rest => do
    let h ← fromHexChar h
    let l ← fromHexChar l
    let rest ← hexPairs rest
    return Char.ofNat (h * 16 + l) :: rest

def fromHex : Option Str :=
  let text := if "0x".toList.isPrefixOf text then text.drop 2 else text
  match text with
  | [] => some []
  | h :: rest =>
    if text.length % 2 = 1 then do
      let h ← fromHexChar h
      let rest ← hexPairs rest
      return Char.ofNat h :: rest
    else hexPairs text

/-- The constructor of `Address`: a text that is not of 20 bytes gives the address 0. -/
def toAddress : Option Str :=
  (fromHex text).map fun bytes => if bytes.length = 20 then bytes else List.replicate 20 (Char.ofNat 0)

def authorizedAddresses (blockNum : Int) : List Selected → Option (List Str)
  | [] => some []
  | s :: ss => do
    let enableNum ← stoi (s.getField "enable_num".toList)
    if enableNum ≤ blockNum then
      let address ← toAddress (s.getField "address".toList)
      let rest ← authorizedAddresses blockNum ss
      return address :: rest
    else authorizedAddresses blockNum ss

/-- A table, no table, or an exception. -/
inductive Opened where
  | table (t : MemoryTable2)
  | null
  | exception

def Opened.isNull : Opened → Bool
  | null => true
  | _ => false

def Opened.key : Opened → Option Str
  | table t => some t.info.key
  | _ => none

def TableInfo.withFields (info : TableInfo) : TableInfo :=
  { info with fields := info.fields ++ [STATUS, info.key, NUM_FIELD, ID_FIELD] }

namespace MemoryTableFactory2

variable (db : StateStorage) (blockNum : Int) (f : MemoryTableFactory2) (info : TableInfo)

def addTable : Opened × MemoryTableFactory2 :=
  (.table (.opened info), { f with name2Table := f.name2Table.insertIfNew info.name (.opened info) })

variable (authorityFlag : Bool)

/-- `openTableWithoutLock(SYS_ACCESS_TABLE)`, which looks at its own rows. -/
def openAccessTable : Opened × MemoryTableFactory2 :=
  match f.name2Table[SYS_ACCESS_TABLE]? with
  | some t => (.table t, f)
  | none =>
    let info := (getSysTableInfo SYS_ACCESS_TABLE).withFields
    if authorityFlag then
      match authorizedAddresses blockNum ((MemoryTable2.opened info).select db SYS_ACCESS_TABLE {}) with
      | some addresses => f.addTable { info with authorizedAddress := addresses }
      | none => (.exception, f)
    else f.addTable info

def openWith : Opened × MemoryTableFactory2 :=
  let info := info.withFields
  if authorityFlag then
    match f.openAccessTable db blockNum true with
    | (.table access, f) =>
      match authorizedAddresses blockNum (access.select db info.name {}) with
      | some addresses => f.addTable { info with authorizedAddress := addresses }
      | none => (.exception, f)
    | (_, f) => (.exception, f)
  else f.addTable info

variable (name : Str) (authorityFlag : Bool)

def openSysTable : Opened × MemoryTableFactory2 :=
  match f.name2Table[name]? with
  | some t => (.table t, f)
  | none =>
    if name = SYS_ACCESS_TABLE then f.openAccessTable db blockNum authorityFlag
    else f.openWith db blockNum (getSysTableInfo name) authorityFlag

def registeredInfo (entry : Selected) : TableInfo where
  name := name
  key := entry.getField "key_field".toList
  fields := (entry.getField "value_field".toList).splitOn ','

def openTable : Opened × MemoryTableFactory2 :=
  match f.name2Table[name]? with
  | some t => (.table t, f)
  | none =>
    if name ∈ sysTables then f.openSysTable db blockNum name authorityFlag
    else
      match f.openSysTable db blockNum SYS_TABLES true with
      | (.table sysTable, f) =>
        match sysTable.select db name {} with
        | [] => (.null, f)
        | entry :: _ => f.openWith db blockNum (registeredInfo name entry) authorityFlag
      | (_, f) => (.exception, f)

def registration (keyField valueField : Str) : FieldMap :=
  (((∅ : FieldMap).insert "table_name".toList name).insert "key_field".toList keyField).insert
    "value_field".toList valueField

def createTable (keyField valueField : Str) (authorityFlag : Bool) (origin : Str) : Opened × MemoryTableFactory2 :=
  match f.openTable db blockNum SYS_TABLES authorityFlag with
  | (.table sysTable, f) =>
    match sysTable.select db name {} with
    | [] =>
      let insertion : TableCall := .insert name (registration name keyField valueField) ⟨origin, authorityFlag⟩
      match insertion.apply db sysTable with
      | .ok _ => (f.call db (SYS_TABLES, insertion)).openTable db blockNum name authorityFlag
      | .error _ => (.exception, f)
    | _ => (.null, f)
  | (_, f) => (.exception, f)

end MemoryTableFactory2

/-- What a transaction does with the factory. -/
inductive FactoryOp where
  | openTable (name : Str) (authorityFlag : Bool)
  | createTable (name keyField valueField : Str) (authorityFlag : Bool) (origin : Str)
  | call (c : Str × TableCall)

def MemoryTableFactory2.step (db : StateStorage) (blockNum : Int) (f : MemoryTableFactory2) :
    FactoryOp → MemoryTableFactory2
  | .openTable name authorityFlag => (f.openTable db blockNum name authorityFlag).2
  | .createTable name keyField valueField authorityFlag origin =>
    (f.createTable db blockNum name keyField valueField authorityFlag origin).2
  | .call c => f.call db c

end FiscoBcos
