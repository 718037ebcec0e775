import FiscoBcos.Storage.BinLogHandler

/-!
# What is read from the binary log is what was written

Tables are read back as long as every size fits into the bytes it is written with and the names of the fields can be told
apart.
-/

namespace FiscoBcos

open List Option Nat

namespace BinLog

variable {keys : List ByteString}

open FixedWidth

def loggedFields (e : LogEntry) : List ByteString → Std.ExtTreeMap ByteString ByteString →
    Std.ExtTreeMap ByteString ByteString
  | [], fields => fields
  | key :: keys, fields => loggedFields e keys ((e.fields[key]?).elim fields (fields.insert key))

def LogEntry.logged (vecField : List ByteString) (force : Bool) (e : LogEntry) : LogEntry :=
  ⟨e.id, e.status, loggedFields e (written vecField) ∅, force⟩

def LogTable.logged (t : LogTable) : LogTable :=
  let force := forcedTables.contains t.name
  ⟨t.name, t.key, t.fields.filter (· ≠ t.key), t.dirtyEntries.map (·.logged t.vecField force),
    t.newEntries.map (·.logged t.vecField force)⟩

structure LogEntry.Loggable (e : LogEntry) : Prop where
  id_lt : e.id < 2 ^ 64
  value_lt : ∀ {key value : ByteString}, e.fields[key]? = some value → value.length < 2 ^ 32

/-- Sizes fit, and names are neither empty nor contain a comma. A table has the three reserved names. -/
structure LogTable.Loggable (t : LogTable) : Prop where
  name_lt : t.name.length < 2 ^ 8
  names : ∀ field ∈ t.vecField, field ≠ [] ∧ 0x2c ∉ field
  names_lt : ((ascii ",").intercalate t.vecField).length < 2 ^ 32
  reserved : (written t.vecField).length + 3 ≤ t.vecField.length
  dirty_lt : t.dirtyEntries.length < 2 ^ 32
  new_lt : t.newEntries.length < 2 ^ 32
  dirty : ∀ e ∈ t.dirtyEntries, e.Loggable
  new : ∀ e ∈ t.newEntries, e.Loggable

/-- A file with the version and the block is shorter than 2 ^ 32 bytes. -/
structure Block.Loggable (crc32 : List UInt8 → Nat) (b : Block) : Prop where
  num_lt : b.num < 2 ^ 63
  datas_lt : b.datas.length < 2 ^ 32
  datas : ∀ t ∈ b.datas, t.Loggable
  length_lt : (blockData crc32 b).length + 8 < 2 ^ 32

section

variable {flags : List UInt8} {i j : Nat}

lemma toNat_setBit (b : UInt8) {k : Nat} (hk : k < 8) :
    (UInt8.ofNat (b.toNat ||| 2 ^ k)).toNat = b.toNat ||| 2 ^ k := by
  apply UInt8.toNat_ofNat_of_lt'
  exact Nat.or_lt_two_pow b.toNat_lt (Nat.pow_lt_pow_right (by decide) hk)

lemma length_setFlag : (setFlag flags i).length = flags.length :=
  length_modify _ _ _

lemma flag_setFlag (hi : i / 8 < flags.length) : flag (setFlag flags i) j = (decide (i = j) || flag flags j) := by
  unfold flag setFlag
  rw [getD_eq_getElem?_getD, getD_eq_getElem?_getD]
  by_cases hbyte : i / 8 = j / 8
  · rw [← hbyte, getElem?_modify_eq, getElem?_eq_getElem hi]
    change (UInt8.ofNat (flags[i / 8].toNat ||| 2 ^ (7 - i % 8))).toNat.testBit (7 - j % 8) =
      (decide (i = j) || flags[i / 8].toNat.testBit (7 - j % 8))
    rw [toNat_setBit _ (by omega), testBit_or, testBit_two_pow, Bool.or_comm]
    congr 1
    apply Bool.decide_congr
    omega
  · have hne : i ≠ j := fun heq => hbyte (by rw [heq])
    rw [getElem?_modify_ne _ _ hbyte, decide_eq_false hne, Bool.false_or]

lemma length_usedFlag (e : LogEntry) (keys : List ByteString) (i : Nat) (flags : List UInt8) :
    (usedFlag e keys i flags).length = flags.length := by
  induction keys generalizing i flags with
  | nil => rfl
  | cons key keys ih =>
    unfold usedFlag
    rw [ih]
    split
    · exact length_setFlag
    · rfl

lemma flag_usedFlag_of_lt {e : LogEntry} (hkeys : i + keys.length ≤ 8 * flags.length)
    (hj : j < i) : flag (usedFlag e keys i flags) j = flag flags j := by
  induction keys generalizing i flags with
  | nil => rfl
  | cons key keys ih =>
    rw [length_cons] at hkeys
    unfold usedFlag
    split
    · rw [ih (by rw [length_setFlag]; omega) (by omega), flag_setFlag (by omega), decide_eq_false (by omega),
        Bool.false_or]
    · exact ih (by omega) (by omega)

lemma flag_replicate (n i : Nat) : flag (replicate n 0) i = false := by
  unfold flag
  have hzero : (replicate n (0 : UInt8)).getD (i / 8) 0 = 0 := by
    rw [getD_eq_getElem?_getD, getElem?_replicate]
    split <;> rfl
  rw [hzero]
  exact zero_testBit _

lemma flag_usedFlag {e : LogEntry} (hkeys : i + keys.length ≤ 8 * flags.length)
    (hflags : ∀ j, i ≤ j → flag flags j = false) (hj : j < keys.length) :
    flag (usedFlag e keys i flags) (i + j) = decide (keys[j] ∈ e.fields) := by
  induction keys generalizing i j flags with
  | nil => exact absurd hj (not_lt_zero j)
  | cons key keys ih =>
    rw [length_cons] at hkeys hj
    have hset : ∀ k, i + 1 ≤ k → flag (if key ∈ e.fields then setFlag flags i else flags) k = false := by
      intro k hk
      split
      · rw [flag_setFlag (by omega), decide_eq_false (by omega), Bool.false_or]
        exact hflags k (by omega)
      · exact hflags k (by omega)
    have hlen : (if key ∈ e.fields then setFlag flags i else flags).length = flags.length := by
      split
      · exact length_setFlag
      · rfl
    unfold usedFlag
    cases j with
    | zero =>
      rw [flag_usedFlag_of_lt (by rw [hlen]; omega) (by omega), add_zero, getElem_cons_zero]
      split
      · rename_i hmem
        rw [flag_setFlag (by omega), decide_eq_true rfl, decide_eq_true hmem]
        rfl
      · rename_i hmem
        rw [hflags i (le_rfl), decide_eq_false hmem]
    | succ j =>
      rw [show i + (j + 1) = i + 1 + j by omega, getElem_cons_succ]
      exact ih (by rw [hlen]; omega) hset (by omega)

end

section

variable {e : LogEntry} {vecField : List ByteString}

lemma readFields_encodeFields (he : e.Loggable) (flags : List UInt8) (keys : List ByteString) (i : Nat)
    (hflags : ∀ j (hj : j < keys.length), flag flags (i + j) = decide (keys[j] ∈ e.fields))
    (fields : Std.ExtTreeMap ByteString ByteString) (rest : List UInt8) :
    readFields flags keys i (encodeFields e keys ++ rest) fields = some (loggedFields e keys fields, rest) := by
  induction keys generalizing i fields with
  | nil => rfl
  | cons key keys ih =>
    have hhead := hflags 0 (succ_pos _)
    rw [add_zero, getElem_cons_zero] at hhead
    have htail : ∀ j (hj : j < keys.length), flag flags (i + 1 + j) = decide (keys[j] ∈ e.fields) := by
      intro j hj
      have hnext := hflags (j + 1) (succ_lt_succ hj)
      rw [show i + 1 + j = i + (j + 1) by omega]
      exact hnext
    unfold readFields loggedFields encodeFields
    rw [hhead, flatMap_cons, append_assoc]
    cases hvalue : e.fields[key]? with
    | none =>
      have hmem : key ∉ e.fields := by
        rw [← Std.ExtTreeMap.isSome_getElem?_iff_mem, hvalue]
        exact nofun
      rw [if_neg (by rw [decide_eq_false hmem]; decide)]
      exact ih (i + 1) htail fields
    | some value =>
      have hmem : key ∈ e.fields := by
        rw [← Std.ExtTreeMap.isSome_getElem?_iff_mem, hvalue]
        rfl
      have hread := readString_encodeString 4 (he.value_lt hvalue) (encodeFields e keys ++ rest)
      rw [if_pos (decide_eq_true hmem)]
      change (readString 4 (encodeString 4 value ++ (encodeFields e keys ++ rest))).bind _ = _
      rw [hread, bind_some]
      exact ih (i + 1) htail (fields.insert key value)

lemma decodeEntry_encodeEntry (he : e.Loggable) (hvec : (written vecField).length + 3 ≤ vecField.length)
    (force : Bool) (rest : List UInt8) :
    decodeEntry vecField force (encodeEntry vecField e ++ rest) = some (e.logged vecField force, rest) := by
  have hkeys : 0 + (written vecField).length ≤ 8 * (replicate (flagSize vecField) (0 : UInt8)).length := by
    rw [length_replicate]
    unfold flagSize
    omega
  have hflags := fun j hj => flag_usedFlag (e := e) hkeys (fun j _ => flag_replicate _ j) (j := j) hj
  have hlength := length_usedFlag e (written vecField) 0 (replicate (flagSize vecField) 0)
  rw [length_replicate] at hlength
  have hstatus := read_encode 1 (n := e.status.toNat) e.status.toNat_lt
  have hone : encode 1 e.status.toNat = [e.status] := by
    unfold encode encode
    rw [UInt8.ofNat_toNat]
    rfl
  rw [hone] at hstatus
  unfold decodeEntry encodeEntry
  generalize usedFlag e (written vecField) 0 (replicate (flagSize vecField) 0) = flags at hflags hlength ⊢
  have hbytes : encode 8 e.id ++ e.status :: (flags ++ encodeFields e (written vecField)) ++ rest =
      encode 8 e.id ++ ([e.status] ++ (flags ++ (encodeFields e (written vecField) ++ rest))) := by
    simp
  rw [hbytes, read_encode 8 he.id_lt, bind_some, hstatus, bind_some, ← hlength,
    readBytes_append, bind_some, readFields_encodeFields he flags _ 0 hflags, map_some,
    UInt8.ofNat_toNat]
  rfl

lemma readMany_flatMap {α β : Type} {readOne : List UInt8 → Option (β × List UInt8)} {encode : α → List UInt8}
    {f : α → β} {as : List α} (h : ∀ a ∈ as, ∀ rest, readOne (encode a ++ rest) = some (f a, rest))
    (rest : List UInt8) : readMany readOne as.length (as.flatMap encode ++ rest) = some (as.map f, rest) := by
  induction as with
  | nil => rfl
  | cons a as ih =>
    rw [flatMap_cons, append_assoc]
    change (readOne (encode a ++ (as.flatMap encode ++ rest))).bind (fun r =>
      (readMany readOne as.length r.2).map fun rs => (r.1 :: rs.1, rs.2)) = _
    rw [h a mem_cons_self, bind_some, ih fun a' ha' => h a' (mem_cons_of_mem _ ha')]
    rfl

lemma decodeEntries_encodeEntries {entries : List LogEntry} (he : ∀ e ∈ entries, e.Loggable)
    (hlt : entries.length < 2 ^ 32) (hvec : (written vecField).length + 3 ≤ vecField.length) (force : Bool)
    (rest : List UInt8) : decodeEntries vecField force (encodeEntries vecField entries ++ rest) =
      some (entries.map (·.logged vecField force), rest) := by
  unfold decodeEntries encodeEntries
  rw [append_assoc, read_encode 4 hlt, bind_some]
  exact readMany_flatMap (fun e hmem => decodeEntry_encodeEntry (he e hmem) hvec force) rest

end

section

lemma splitFields_intercalate {vecField : List ByteString} (hne : vecField ≠ [])
    (h : ∀ field ∈ vecField, field ≠ [] ∧ 0x2c ∉ field) : splitFields ((ascii ",").intercalate vecField) = vecField := by
  have hcomma : ascii "," = [0x2c] := rfl
  unfold splitFields
  rw [hcomma, splitOn_intercalate 0x2c (fun l hl => (h l hl).2) hne]
  cases vecField with
  | nil => exact absurd rfl hne
  | cons first others =>
    dsimp only
    have hall : others.dropLast.filter (fun field => !field.isEmpty) = others.dropLast := by
      apply filter_eq_self.mpr
      intro field hmem
      have hfield := (h field (mem_cons_of_mem _ (mem_of_mem_dropLast hmem))).1
      cases field with
      | nil => exact absurd rfl hfield
      | cons => rfl
    rw [hall]
    cases hlast : others.getLast? with
    | none =>
      obtain rfl := getLast?_eq_none_iff.mp hlast
      rfl
    | some last => exact congrArg (first :: ·) (dropLast_append_getLast? last hlast)

lemma decodeTable_encodeTable {t : LogTable} (ht : t.Loggable) (rest : List UInt8) :
    decodeTable (encodeTable t ++ rest) = some (t.logged, rest) := by
  have hsplit : splitFields ((ascii ",").intercalate t.vecField) = t.vecField :=
    splitFields_intercalate (cons_ne_nil _ _) ht.names
  unfold decodeTable encodeTable
  rw [append_assoc, append_assoc, append_assoc, readString_encodeString 1 ht.name_lt, bind_some,
    readString_encodeString 4 ht.names_lt, bind_some]
  dsimp only
  rw [hsplit, decodeEntries_encodeEntries ht.dirty ht.dirty_lt ht.reserved, bind_some,
    decodeEntries_encodeEntries ht.new ht.new_lt ht.reserved, map_some]
  rfl

variable {b : Block} {crc32 : List UInt8 → Nat}

lemma decodeBlock_blockData (hb : b.Loggable crc32) (startNum endNum : Int) :
    decodeBlock (blockData crc32 b) startNum endNum = some (if (b.num : Int) ≤ startNum then .LessThanSpecifiedRange
        else if endNum < b.num then .GreaterThanSpecifiedRange else .Success b.num (b.datas.map LogTable.logged)) := by
  have hnum : toInt64 b.num = b.num := if_pos hb.num_lt
  have hlt := hb.num_lt
  unfold decodeBlock blockData
  rw [append_assoc, append_assoc, read_encode 8 (by omega), bind_some]
  rw [hnum]
  split
  · rfl
  split
  · rfl
  rw [read_encode 4 hb.datas_lt, bind_some]
  rw [readMany_flatMap fun t ht => decodeTable_encodeTable (hb.datas t ht), map_some, if_pos (length_encode 4 _)]

lemma read_num (hb : b.Loggable crc32) {rest : List UInt8} :
    ∃ rest', read 8 (blockData crc32 b ++ rest) = some (b.num, rest') := by
  have hlt := hb.num_lt
  unfold blockData
  rw [append_assoc, append_assoc, append_assoc, read_encode 8 (by omega)]
  exact ⟨_, rfl⟩

lemma read_length (hb : b.Loggable crc32) (rest : List UInt8) : read 4 (encodeBlock crc32 b ++ rest) =
      some ((blockData crc32 b).length, blockData crc32 b ++ rest) := by
  have hlt := hb.length_lt
  unfold encodeBlock encodeString
  rw [append_assoc, read_encode 4 (by omega)]

end

end BinLog

end FiscoBcos
