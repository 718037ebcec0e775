import FiscoBcos.Lib.FixedWidth

/-!
# The binary log

`libstorage/BinLogHandler.cpp`: before a block is committed to the storage, the data of its tables is appended to a file,
which starts with a version and is named after its first block. Offsets in a file are `uint32_t`.
-/

namespace FiscoBcos

open FixedWidth

namespace BinLog

abbrev ByteString := List UInt8

variable (flags : List UInt8)

def ascii (s : String) : ByteString :=
  s.toList.map fun c => UInt8.ofNat c.toNat

/-- `STATUS`, `NUM_FIELD` and `ID_FIELD`, which are not written with the fields of an entry. -/
def reserved : List ByteString :=
  [ascii "_status_", ascii "_num_", ascii "_id_"]

def forcedTables : List ByteString :=
  [ascii "_sys_block_2_nonces_", ascii "_sys_hash_2_block_"]

structure LogEntry where
  id : Nat
  status : UInt8
  fields : Std.ExtTreeMap ByteString ByteString
  force : Bool := false
deriving DecidableEq

structure LogTable where
  name : ByteString
  key : ByteString
  fields : List ByteString
  dirtyEntries : List LogEntry
  newEntries : List LogEntry
deriving DecidableEq

variable (t : LogTable)

structure Block where
  num : Nat
  datas : List LogTable
deriving DecidableEq

/-- The bit of a field in `usedFlag`, counted from the highest one. -/
def setFlag (i : Nat) : List UInt8 :=
  flags.modify (i / 8) fun b => UInt8.ofNat (b.toNat ||| 2 ^ (7 - i % 8))

def flag (i : Nat) : Bool :=
  (flags.getD (i / 8) 0).toNat.testBit (7 - i % 8)

def flagSize (vecField : List ByteString) : Nat :=
  (vecField.length - 3) / 8 + 1

section

def isReserved (key : ByteString) : Bool :=
  reserved.contains key

def written (vecField : List ByteString) : List ByteString :=
  vecField.filter fun key => !isReserved key

def usedFlag (e : LogEntry) : List ByteString → Nat → List UInt8 → List UInt8
  | [], _, flags => flags
  | key :: keys, i, flags => usedFlag e keys (i + 1) (if key ∈ e.fields then setFlag flags i else flags)

def encodeFields (e : LogEntry) (keys : List ByteString) : List UInt8 :=
  keys.flatMap fun key => (e.fields[key]?).elim [] (encodeString 4)

def encodeEntry (vecField : List ByteString) (e : LogEntry) : List UInt8 :=
  encode 8 e.id ++ e.status ::
    (usedFlag e (written vecField) 0 (List.replicate (flagSize vecField) 0) ++ encodeFields e (written vecField))

def encodeEntries (vecField : List ByteString) (entries : List LogEntry) : List UInt8 :=
  encode 4 entries.length ++ entries.flatMap (encodeEntry vecField)

def LogTable.vecField : List ByteString :=
  t.key :: t.fields.filter (· ≠ t.key)

def encodeTable : List UInt8 :=
  encodeString 1 t.name ++ encodeString 4 ((ascii ",").intercalate t.vecField) ++
    encodeEntries t.vecField t.dirtyEntries ++ encodeEntries t.vecField t.newEntries

variable (crc32 : List UInt8 → Nat) (b : Block)

def blockData : List UInt8 :=
  let data := encode 8 b.num ++ encode 4 b.datas.length ++ b.datas.flatMap encodeTable
  data ++ encode 4 (crc32 data)

def encodeBlock : List UInt8 :=
  encodeString 4 (blockData crc32 b)

end

def readFields (flags : List UInt8) : List ByteString → Nat → List UInt8 → Std.ExtTreeMap ByteString ByteString →
    Option (Std.ExtTreeMap ByteString ByteString × List UInt8)
  | [], _, bs, fields => some (fields, bs)
  | key :: keys, i, bs, fields =>
    if flag flags i then
      (readString 4 bs).bind fun r => readFields flags keys (i + 1) r.2 (fields.insert key r.1)
    else readFields flags keys (i + 1) bs fields

def decodeEntry (vecField : List ByteString) (force : Bool) (bs : List UInt8) : Option (LogEntry × List UInt8) :=
  (read 8 bs).bind fun id =>
    (read 1 id.2).bind fun status =>
      (readBytes (flagSize vecField) status.2).bind fun flags =>
        (readFields flags.1 (written vecField) 0 flags.2 ∅).map fun fields =>
          (⟨id.1, UInt8.ofNat status.1, fields.1, force⟩, fields.2)

def readMany {α : Type} (readOne : List UInt8 → Option (α × List UInt8)) : Nat → List UInt8 → Option (List α × List UInt8)
  | 0, bs => some ([], bs)
  | k + 1, bs =>
    (readOne bs).bind fun r => (readMany readOne k r.2).map fun rs => (r.1 :: rs.1, rs.2)

def decodeEntries (vecField : List ByteString) (force : Bool) (bs : List UInt8) : Option (List LogEntry × List UInt8) :=
  (read 4 bs).bind fun count => readMany (decodeEntry vecField force) count.1 count.2

/-- `boost::split` at commas, where commas next to each other count as one. -/
def splitFields (s : ByteString) : List ByteString :=
  match s.splitOn 0x2c with
  | [] => []
  | first :: others => first :: (others.dropLast.filter fun field => !field.isEmpty) ++ others.getLast?.toList

def decodeTable (bs : List UInt8) : Option (LogTable × List UInt8) :=
  (readString 1 bs).bind fun name =>
    (readString 4 name.2).bind fun fields =>
      let vecField := splitFields fields.1
      let force := forcedTables.contains name.1
      (decodeEntries vecField force fields.2).bind fun dirtyEntries =>
        (decodeEntries vecField force dirtyEntries.2).map fun newEntries =>
          (⟨name.1, vecField.headD [], vecField.tail, dirtyEntries.1, newEntries.1⟩, newEntries.2)

inductive DecodeBlockResult where
  | Success (num : Int) (datas : List LogTable)
  | LessThanSpecifiedRange
  | GreaterThanSpecifiedRange
  | BlockDataLengthError
deriving DecidableEq

def toInt64 (n : Nat) : Int :=
  if n < 2 ^ 63 then n else n - 2 ^ 64

def decodeBlock (buffer : List UInt8) (startNum endNum : Int) : Option DecodeBlockResult :=
  (read 8 buffer).bind fun num =>
    if toInt64 num.1 ≤ startNum then some .LessThanSpecifiedRange
    else if endNum < toInt64 num.1 then some .GreaterThanSpecifiedRange
    else
      (read 4 num.2).bind fun count =>
        (readMany decodeTable count.1 count.2).map fun datas =>
          if datas.2.length = 4 then .Success (toInt64 num.1) datas.1 else .BlockDataLengthError

structure BinLogFile where
  num : Nat
  bytes : List UInt8
deriving DecidableEq

variable (files : List BinLogFile) (file : List UInt8) (startNum endNum : Int)

def BINLOG_VERSION : Nat := 1

abbrev BlockDataMap := Std.ExtTreeMap Int (List LogTable)

def getBinLogContext : Option (Nat × Nat) :=
  let length := file.length % 2 ^ 32
  if length < 4 then none else (read 4 file).map fun version => (length, version.1)

def getFirstBlockNumInBinLog : Int :=
  ((getBinLogContext file).bind fun _ =>
    (read 4 (file.drop 4)).bind fun blockLen => read 8 blockLen.2).elim (-1)
    fun blockNum => toInt64 blockNum.1

def lastBlockNum (file : List UInt8) (length : Nat) : Nat → Nat → Nat → Int
  | 0, _, blockNum => toInt64 blockNum
  | k + 1, offset, blockNum =>
    if length ≤ offset then toInt64 blockNum
    else
      match read 4 (file.drop offset) with
      | none => -1
      | some (blockLen, rest) =>
        if length < offset + 4 + blockLen then toInt64 blockNum
        else
          match read 8 rest with
          | none => toInt64 blockNum
          | some (num, _) => lastBlockNum file length k ((offset + (4 + blockLen)) % 2 ^ 32) num

def sorted : List BinLogFile :=
  files.insertionSort fun a b => b.num ≤ a.num

/-- `none` if the first block of the file is not the one it is named after. -/
def getLastBlockNum : Option Int :=
  match sorted files with
  | [] => some (-1)
  | file :: _ =>
    if getFirstBlockNumInBinLog file.bytes ≠ file.num then none
    else
      some ((getBinLogContext file.bytes).elim (-1) fun context =>
        lastBlockNum file.bytes context.1 file.bytes.length 4 0)

/-- The loop of `getBlockData`. Its result is not looked at, the blocks that were read before stay. -/
def getBlockData (file : List UInt8) (length : Nat) (startNum endNum : Int) :
    Nat → Nat → BlockDataMap → Option BlockDataMap
  | 0, _, blocksData => some blocksData
  | k + 1, offset, blocksData =>
    if length ≤ offset then some blocksData
    else
      match read 4 (file.drop offset) with
      | none => some blocksData
      | some (blockLen, rest) =>
        let offset := (offset + 4) % 2 ^ 32
        if length < (offset + blockLen) % 2 ^ 32 then some blocksData
        else
          match readBytes blockLen rest with
          | none => some blocksData
          | some (buffer, _) =>
            let offset := (offset + blockLen) % 2 ^ 32
            (decodeBlock buffer startNum endNum).bind fun
              | .Success num datas => getBlockData file length startNum endNum k offset (blocksData.insert num datas)
              | .LessThanSpecifiedRange => getBlockData file length startNum endNum k offset blocksData
              | .GreaterThanSpecifiedRange => some blocksData
              | .BlockDataLengthError => some blocksData

def readBinLog (blocksData : BlockDataMap) : Option BlockDataMap :=
  (getBinLogContext file).elim (some blocksData) fun context =>
    if context.2 = BINLOG_VERSION then getBlockData file context.1 startNum endNum file.length 4 blocksData
    else some blocksData

def readFiles (startNum endNum : Int) : List BinLogFile → BlockDataMap → Option BlockDataMap
  | [], blocksData => some blocksData
  | file :: files, blocksData =>
    let num := getFirstBlockNumInBinLog file.bytes
    if num ≠ file.num then none
    else if endNum < num then readFiles startNum endNum files blocksData
    else
      (readBinLog file.bytes startNum endNum blocksData).bind fun blocksData =>
        if file.num ≤ startNum then some blocksData else readFiles startNum endNum files blocksData

def getMissingBlocksFromBinLog : Option BlockDataMap :=
  if endNum ≤ startNum then some ∅ else readFiles startNum endNum (sorted files) ∅

end BinLog

open BinLog

/-- The files of the directory, the newest one first, and `m_writtenBytesLength`. -/
structure BinLogHandler where
  files : List BinLogFile := []
  writtenBytesLength : Nat := 0
deriving DecidableEq

namespace BinLogHandler

variable (crc32 : List UInt8 → Nat) (binarylogSize : Nat) (h : BinLogHandler) (b : BinLog.Block)

def NewFile : Prop :=
  h.writtenBytesLength = 0 ∨ h.writtenBytesLength + (encodeBlock crc32 b).length > binarylogSize

instance : Decidable (NewFile crc32 binarylogSize h b) :=
  inferInstanceAs (Decidable (_ ∨ _))

def output : List UInt8 :=
  if NewFile crc32 binarylogSize h b then encode 4 BINLOG_VERSION ++ encodeBlock crc32 b
  else encodeBlock crc32 b

/-- The directory after bytes of a block have been written. Block numbers increase, so the name of a new file is
new. -/
def appended (bytes : List UInt8) : List BinLogFile :=
  if NewFile crc32 binarylogSize h b then ⟨b.num, bytes⟩ :: h.files
  else h.files.modifyHead fun file => { file with bytes := file.bytes ++ bytes }

def writeBlocktoBinLog : BinLogHandler where
  files := appended crc32 binarylogSize h b (output crc32 binarylogSize h b)
  writtenBytesLength :=
    (if NewFile crc32 binarylogSize h b then 4 + (encodeBlock crc32 b).length
      else h.writtenBytesLength + (encodeBlock crc32 b).length) % 2 ^ 32

/-- The directory after a crash that leaves the first bytes of what is written for a block, or comes between two
blocks. -/
def crash : Option (BinLog.Block × Nat) → List BinLogFile
  | none => h.files
  | some (b, cut) => appended crc32 binarylogSize h b ((output crc32 binarylogSize h b).take cut)

variable (relative : Bool)

/-- The constructor: files that are not longer than a version are removed. The path to them is put together so that
this works if the path of the directory is relative. -/
def checkBinLogSize (files : List BinLogFile) : List BinLogFile :=
  if relative then files.filter fun file => decide (4 < file.bytes.length) else files

def start (files : List BinLogFile) : BinLogHandler :=
  ⟨checkBinLogSize relative files, 0⟩

def step (op : Bool × BinLog.Block) : BinLogHandler :=
  writeBlocktoBinLog crc32 binarylogSize (if op.1 then start relative h.files else h) op.2

end BinLogHandler

end FiscoBcos
