import FiscoBcos.Chain.Block
import FiscoBcos.Lib.Journal

/-!
# The system tables

The rows of `_sys_config_` and `_sys_consensus_` in the tables of the block being executed, and the functions of
`libprecompiled/Common.cpp` that read them.
-/

namespace FiscoBcos

def CODE_NO_AUTHORIZED : Int := -50000

/-- A text as `boost::lexical_cast` reads it; the texts of one number are not told apart. -/
inductive FieldText where
  | empty
  | number (n : Int)
  | other
deriving DecidableEq

def FieldText.toInt : FieldText → Option Int
  | .number n => if -2147483648 ≤ n ∧ n ≤ 2147483647 then some n else none
  | _ => none

def FieldText.toInt64 : FieldText → Option Int
  | .number n => if -9223372036854775808 ≤ n ∧ n ≤ 9223372036854775807 then some n else none
  | _ => none

inductive NodeType where
  | sealer
  | observer
  | workingSealer
deriving DecidableEq

structure NodeRow where
  nodeId : NodeID
  type : NodeType
  enableNum : FieldText
deriving DecidableEq

inductive ConfigKey where
  | notifyRotate
  | epochSealerNum
  | epochBlockNum
deriving DecidableEq

structure ConfigRow where
  key : ConfigKey
  value : FieldText
  enableNum : FieldText
deriving DecidableEq

inductive SysTable where
  | config
  | consensus
deriving DecidableEq

abbrev SysTable.Row : SysTable → Type
  | .config => ConfigRow
  | .consensus => NodeRow

abbrev TableFactory :=
  Journal.Store SysTable SysTable.Row

def TableFactory.load (config : List ConfigRow) (consensus : List NodeRow) : TableFactory where
  tables
    | .config => config.map fun row => ⟨row, false⟩
    | .consensus => consensus.map fun row => ⟨row, false⟩
  log := []

namespace TableFactory

variable (s : TableFactory)

def configRows : List ConfigRow :=
  s.rows .config

def nodeRows : List NodeRow :=
  s.rows .consensus

end TableFactory

def getNodeListByType (blockNumber : Int) (type : NodeType) : List NodeRow → List NodeID
  | [] => []
  | row :: rows =>
    if row.type = type then
      match row.enableNum.toInt with
      | none => []
      | some enableNum =>
        if enableNum ≤ blockNumber then row.nodeId :: getNodeListByType blockNumber type rows
        else getNodeListByType blockNumber type rows
    else getNodeListByType blockNumber type rows

/-- The value and its enable number, or the empty text and `-1`; an exception is `none`. -/
def getSysteConfigByKey (key : ConfigKey) (num : Int) (rows : List ConfigRow) : Option (FieldText × Int) :=
  match rows.filter fun row => row.key = key with
  | [row] => row.enableNum.toInt64.map fun enableNum =>
      if enableNum ≤ num then (row.value, enableNum) else (.empty, -1)
  | _ => some (.empty, -1)

def setSystemConfigByKey (key : ConfigKey) (value : FieldText) (enableNumber : Int) (s : TableFactory) :
    TableFactory :=
  let entry : ConfigRow := { key := key, value := value, enableNum := .number enableNumber }
  if (s.configRows.filter fun row => row.key = key).isEmpty then s.insert .config entry
  else s.update .config (fun row => row.key = key) fun _ => entry

end FiscoBcos
