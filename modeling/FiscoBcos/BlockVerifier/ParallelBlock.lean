import Mathlib.Data.List.DropRight
import FiscoBcos.BlockVerifier.ExactlyOnce
import FiscoBcos.Ethcore.ContractABI
import FiscoBcos.Lib.Except
import FiscoBcos.Storage.HexText

/-!
# Blocks for parallel execution

`ExecutiveContext::getTxCriticals` reads the critical fields of a transaction from its data, by a signature that was
registered in `ParallelConfigPrecompiled`, before `parallelExecuteBlock` executes the block.
-/

namespace FiscoBcos

open List Option Machine TxDAG ParallelExecution Nat Function

variable {data : List UInt8} {offset : Nat} (s : Str)

open ContractABI

/-- The `trim` of `ABIParser.cpp`. -/
def trimBlanks : Str :=
  (s.dropWhile (· == ' ')).rdropWhile (· == ' ')

def isElementaryType : Bool :=
  ["bool".toList, "address".toList, "string".toList, "bytes".toList, "uint".toList, "int".toList].contains s ||
    (range 32).any fun n => ["uint".toList ++ toDigits 10 (8 * (n + 1)), "int".toList ++ toDigits 10 (8 * (n + 1)),
      "bytes".toList ++ toDigits 10 (n + 1)].contains s

/-- The loop of `ABIInType::reset`, which skips what stands between two pairs of brackets. -/
def readExtents : Nat → Str → Bool
  | 0, rest => rest.isEmpty
  | n + 1, rest =>
    let left := rest.dropWhile (· != '[')
    let right := left.tail.dropWhile (· != ']')
    rest.isEmpty || !left.isEmpty && !(rest.takeWhile (· != '[')).contains ']' && !right.isEmpty &&
      (trimBlanks (left.tail.takeWhile (· != ']'))).all Char.isDigit && readExtents n right.tail

def resetType : Bool :=
  isElementaryType (trimBlanks (s.takeWhile (· != '['))) && readExtents s.length (s.dropWhile (· != '['))

/-- `ABIFunc::parser` with `getParamsType`; `none` is the result `false`. -/
def parseSignature (sig : Str) : Option (List Str) :=
  let types := (sig.dropWhile (· != '(')).tail
  if types.contains ')' = false ∨ (sig.takeWhile (· != '(')).contains ')' then none
  else
    let types := (((types.takeWhile (· != ')')).splitOn ',').map trimBlanks).filter (!·.isEmpty)
    if types.all resetType then some types else none

/-- How `parallelExecuteBlock` can end without a result. -/
inductive BlockError where
  | lengthError
  | nullPointer
  | badStateOrReceipt
deriving DecidableEq

structure ParallelConfig where
  functionName : Str
  criticalSize : Nat

/-- The types that are passed to `abiOutByFuncSelector`. -/
def ParallelConfig.criticalTypes (c : ParallelConfig) : Option (List Str) :=
  (parseSignature c.functionName).bind fun types =>
    if types.length < c.criticalSize % 2 ^ 64 then none else some (types.take (c.criticalSize % 2 ^ 64))

inductive ParallelConfigCall where
  | registerParallelFunction (contractAddress : H160) (functionName : Str) (criticalSize : Nat)
  | unregisterParallelFunction (contractAddress : H160) (functionName : Str)

/-- The tables of all contracts, by their selectors. -/
abbrev ParallelTables := H160 → Nat → Option ParallelConfig

def ParallelTables.call (getFuncSelector : Str → Nat) (t : ParallelTables) : ParallelConfigCall → ParallelTables
  | .registerParallelFunction a name size =>
    update t a (update (t a) (getFuncSelector name) (some ⟨name, size⟩))
  | .unregisterParallelFunction a name => update t a (update (t a) (getFuncSelector name) none)

/-- The bytes as the characters of a `std::string`. -/
def asString (bytes : List UInt8) : Str :=
  bytes.map fun b => Char.ofNat b.toNat

/-- One round of `abiOutByFuncSelector`. The exception is `none`, another type `some none`. -/
def readCritical (data : List UInt8) (offset : Nat) (type : Str) : Option (Option Str) :=
  if type = "int".toList ∨ type = "int256".toList then
    (deserialise data .int256 offset).map fun s : Int => some (toString s).toList
  else if type = "uint".toList ∨ type = "uint256".toList then
    (deserialise data .uint256 offset).map fun u : Nat => some (toString u).toList
  else if type = "address".toList then
    (deserialise data .address offset).map fun a : List UInt8 => some (toHex (asString a))
  else if type = "string".toList then
    (deserialiseU256 data offset).bind fun o =>
      (deserialise data .string (o % 2 ^ 64)).map fun s : List UInt8 => some (asString s)
  else some none

def abiOutByFuncSelector (data : List UInt8) (offset : Nat) : List Str → Option (Option (List Str))
  | [] => some (some [])
  | type :: types =>
    (readCritical data offset type).bind fun
      | none => some none
      | some c => (abiOutByFuncSelector data ((offset + 32) % 2 ^ 64) types).map fun cs => cs.map (c :: ·)

/-- A transaction without recipient is a creation. -/
structure CalledTx where
  receiveAddress : Option H160
  data : List UInt8

/-- The pointer to the first bytes is not checked. -/
def getParamFunc (data : List UInt8) : Except BlockError Nat :=
  if data.length < 4 then .error .nullPointer else .ok (Rlp.ofBigEndian (data.take 4))

/-- The precompiled contracts with their `getParallelTag`, if they are parallel. -/
abbrev ParallelTags := H160 → Option (Option (List UInt8 → List Str))

open ParallelConfig

def getTxCriticals (tags : ParallelTags) (t : ParallelTables) (tx : CalledTx) : Except BlockError (Option (List Str)) :=
  match tx.receiveAddress with
  | none => .ok none
  | some a =>
    match tags a with
    | some none => .ok none
    | some (some getParallelTag) =>
      (getParamFunc tx.data).map fun _ => some ((getParallelTag tx.data).map (· ++ toHex a.bytes))
    | none =>
      (getParamFunc tx.data).bind fun selector =>
        match (t a selector).bind criticalTypes with
        | none => .ok none
        | some types =>
          match abiOutByFuncSelector (tx.data.drop 4) 0 types with
          | none => .error .lengthError
          | some res => .ok (res.map (map (· ++ toHex a.bytes)))

def TxDAG.initTxs (tags : ParallelTags) (t : ParallelTables) (txs : List CalledTx) : Except BlockError DAG :=
  (txs.mapM (getTxCriticals tags t)).map init

/-- What `BlockVerifier::execute` makes of a transaction: the receipt, and the data with which precompiled contracts were
called on the way. -/
structure TxOutcome (R : Type*) where
  receipt : R
  inputs : List (List UInt8)

structure BlockExecution (w : Nat) (R : Type*) where
  threads : ParallelExecution w
  receipts : List (Option R)
  aborted : Option BlockError := none

namespace BlockExecution

variable {w : Nat} {R : Type*}

/-- A step of thread `i`. Each precompiled contract begins with `getParamFunc`. -/
def step (outcome : ParallelExecution w → Nat → TxOutcome R) (s : BlockExecution w R) (i : Fin w) : BlockExecution w R :=
  match s.aborted, s.threads.workers i with
  | some _, _ => s
  | none, .execute _ id =>
    if ∀ input ∈ (outcome s.threads id).inputs, 4 ≤ input.length then
      { s with threads := s.threads.step i, receipts := s.receipts.set id (some (outcome s.threads id).receipt) }
    else { s with aborted := some .nullPointer }
  | none, _ => { s with threads := s.threads.step i }

def start (d : DAG) (n : Nat) : BlockExecution w R where
  threads := .start d
  receipts := replicate n none

def parallelExecuteBlock (tags : ParallelTags) (t : ParallelTables) (txs : List CalledTx)
    (outcome : ParallelExecution w → Nat → TxOutcome R) (sameHeader : List (Option R) → Bool) (schedule : List (Fin w)) :
    Except BlockError (List (Option R)) :=
  (initTxs tags t txs).bind fun d =>
    let s := run (step outcome) (start d txs.length) schedule
    match s.aborted with
    | some e => .error e
    | none => if sameHeader s.receipts then .ok s.receipts else .error .badStateOrReceipt

end BlockExecution

section

variable (tags : ParallelTags) {t : ParallelTables} {type : Str}

def Supported (type : Str) : Prop :=
  type = "int".toList ∨ type = "int256".toList ∨ type = "uint".toList ∨ type = "uint256".toList ∨
    type = "address".toList ∨ type = "string".toList

/-- The last byte of the word of a parameter is in the data, and for a string so are the last bytes of the length and of
the text to which the word points. Positions are a `size_t`. -/
def Readable (data : List UInt8) (offset : Nat) (type : Str) : Prop :=
  (offset + 31) % 2 ^ 64 < data.length ∧ (type = "string".toList →
    let o := Rlp.ofBigEndian (cropped data offset 32) % 2 ^ 64
    (o + 31) % 2 ^ 64 < data.length ∧
      (o + 32 + Rlp.ofBigEndian (cropped data o 32) % 2 ^ 64 + (2 ^ 64 - 1)) % 2 ^ 64 < data.length)

/-- The parameters before the first one of another type. -/
def AllReadable (data : List UInt8) (offset : Nat) : List Str → Prop
  | [] => True
  | type :: types => Supported type → Readable data offset type ∧ AllReadable data ((offset + 32) % 2 ^ 64) types

/-- Calls have a selector, and those of parallel functions the parameters that are read. -/
def CalledTx.Decodable (t : ParallelTables) (tx : CalledTx) : Prop :=
  ∀ a ∈ tx.receiveAddress, tags a ≠ some none → 4 ≤ tx.data.length ∧ (tags a = none →
    ∀ types ∈ (t a (Rlp.ofBigEndian (tx.data.take 4))).bind criticalTypes, AllReadable (tx.data.drop 4) 0 types)

lemma validOffset_eq_some_iff : validOffset data offset = some () ↔ offset % 2 ^ 64 < data.length := by
  unfold validOffset
  split_ifs with h
  · exact ⟨fun h => (nomatch h), fun hlt => absurd h (not_le.mpr hlt)⟩
  · exact ⟨fun _ => not_le.mp h, fun _ => rfl⟩

lemma deserialiseU256_eq_some_iff {u : Nat} : deserialiseU256 data offset = some u ↔
    (offset + 31) % 2 ^ 64 < data.length ∧ u = Rlp.ofBigEndian (cropped data offset 32) := by
  unfold deserialiseU256
  rw [bind_eq_bind, bind_eq_some_iff, ← validOffset_eq_some_iff]
  exact ⟨fun ⟨_, h, hu⟩ => ⟨h, (some.inj hu).symm⟩, fun ⟨h, hu⟩ => ⟨_, h, congrArg some hu.symm⟩⟩

lemma deserialise_string_isSome_iff : (∃ x, deserialise data .string offset = some x) ↔
    (offset + 31) % 2 ^ 64 < data.length ∧ (offset + 32 + Rlp.ofBigEndian (cropped data offset 32) % 2 ^ 64 +
      (2 ^ 64 - 1)) % 2 ^ 64 < data.length := by
  simp only [deserialise, bind_eq_bind, bind_eq_some_iff, deserialiseU256_eq_some_iff, ← validOffset_eq_some_iff]
  constructor
  · rintro ⟨x, len, ⟨hword, rfl⟩, _, htext, -⟩
    exact ⟨hword, htext⟩
  · rintro ⟨hword, htext⟩
    exact ⟨_, _, ⟨hword, rfl⟩, _, htext, rfl⟩

lemma readCritical_eq_none (h : ¬Supported type) : readCritical data offset type = some none := by
  simp only [Supported, not_or] at h
  unfold readCritical
  rw [if_neg (by tauto), if_neg (by tauto), if_neg (by tauto), if_neg (by tauto)]

lemma exists_map_some {α : Type*} {o : Option α} {f : α → Str} :
    (∃ c, o.map (fun x => some (f x)) = some (some c)) ↔ ∃ x, o = some x := by
  cases o <;> simp

lemma exists_deserialiseU256 :
    (∃ u, deserialiseU256 data offset = some u) ↔ (offset + 31) % 2 ^ 64 < data.length := by
  simp only [deserialiseU256_eq_some_iff]
  exact ⟨fun ⟨_, h, _⟩ => h, fun h => ⟨_, h, rfl⟩⟩

lemma readable_of_ne (h : type ≠ "string".toList) :
    Readable data offset type ↔ (offset + 31) % 2 ^ 64 < data.length :=
  ⟨fun hread => hread.1, fun hword => ⟨hword, fun heq => absurd heq h⟩⟩

lemma readCritical_isSome_iff (h : Supported type) :
    (∃ c, readCritical data offset type = some (some c)) ↔ Readable data offset type := by
  unfold readCritical
  split_ifs with hint huint haddress hstring
  · rw [readable_of_ne (by rcases hint with rfl | rfl <;> decide), exists_map_some, ← exists_deserialiseU256]
    simp [deserialise]
  · rw [readable_of_ne (by rcases huint with rfl | rfl <;> decide), exists_map_some, ← exists_deserialiseU256]
    rfl
  · rw [readable_of_ne (by rw [haddress]; decide), exists_map_some, ← validOffset_eq_some_iff]
    simp [deserialise, Unique.exists_iff]
  · constructor
    · rintro ⟨c, hc⟩
      obtain ⟨o, ho, hc⟩ := bind_eq_some_iff.mp hc
      obtain ⟨hword, rfl⟩ := deserialiseU256_eq_some_iff.mp ho
      exact ⟨hword, fun _ => deserialise_string_isSome_iff.mp (exists_map_some.mp ⟨c, hc⟩)⟩
    · rintro ⟨hword, htext⟩
      rw [deserialiseU256_eq_some_iff.mpr ⟨hword, rfl⟩, bind_some]
      exact exists_map_some.mpr (deserialise_string_isSome_iff.mpr (htext hstring))
  · unfold Supported at h
    tauto

lemma readCritical_ne_none (h : Supported type) : readCritical data offset type ≠ some none := by
  unfold readCritical
  split_ifs with hint huint haddress hstring
  · simp
  · simp
  · simp
  · intro hnone
    obtain ⟨o, -, hnone⟩ := bind_eq_some_iff.mp hnone
    simp at hnone
  · unfold Supported at h
    tauto

lemma abiOutByFuncSelector_isSome_iff (data : List UInt8) (types : List Str) (offset : Nat) :
    (∃ res, abiOutByFuncSelector data offset types = some res) ↔ AllReadable data offset types := by
  induction types generalizing offset with
  | nil => exact ⟨fun _ => trivial, fun _ => ⟨_, rfl⟩⟩
  | cons type types ih =>
    unfold abiOutByFuncSelector AllReadable
    by_cases htype : Supported type
    · rw [← readCritical_isSome_iff htype, ← ih]
      constructor
      · rintro ⟨res, hres⟩ -
        obtain ⟨c, hc, hres⟩ := bind_eq_some_iff.mp hres
        cases c with
        | none => exact absurd hc (readCritical_ne_none htype)
        | some c =>
          obtain ⟨cs, hcs, -⟩ := map_eq_some_iff.mp hres
          exact ⟨⟨c, hc⟩, cs, hcs⟩
      · intro h
        obtain ⟨⟨c, hc⟩, res, hres⟩ := h htype
        rw [hc, bind_some]
        rw [hres]
        exact ⟨_, rfl⟩
    · rw [readCritical_eq_none htype]
      exact ⟨fun _ h => absurd h htype, fun _ => ⟨none, rfl⟩⟩

lemma getParamFunc_ok_iff {selector : Nat} :
    getParamFunc data = .ok selector ↔ 4 ≤ data.length ∧ selector = Rlp.ofBigEndian (data.take 4) := by
  unfold getParamFunc
  split_ifs with h
  · exact ⟨fun h => (nomatch h), fun hlen => absurd hlen.1 (not_le.mpr h)⟩
  · exact ⟨fun heq => ⟨not_lt.mp h, (Except.ok.inj heq).symm⟩, fun heq => congrArg _ heq.2.symm⟩

/-- The critical fields of a call of a contract that is not precompiled. -/
lemma criticals_ok_iff {a : H160} {selector : Nat} {f : List Str → List Str} :
    (∃ c, (match (t a selector).bind criticalTypes with
      | none => Except.ok none
      | some types =>
        match abiOutByFuncSelector data 0 types with
        | none => .error BlockError.lengthError
        | some res => .ok (res.map f)) = .ok c) ↔
      ∀ types ∈ (t a selector).bind criticalTypes, AllReadable data 0 types := by
  cases (t a selector).bind criticalTypes with
  | none => exact ⟨fun _ _ h => (nomatch h), fun _ => ⟨_, rfl⟩⟩
  | some types =>
    dsimp only
    have hiff := abiOutByFuncSelector_isSome_iff data types 0
    cases hres : abiOutByFuncSelector data 0 types with
    | none =>
      rw [hres] at hiff
      refine ⟨fun ⟨_, h⟩ => (nomatch h), fun h => ?_⟩
      obtain ⟨_, hnone⟩ := hiff.mpr (h types rfl)
      cases hnone
    | some res =>
      refine ⟨fun _ types' h => ?_, fun _ => ⟨_, rfl⟩⟩
      cases h
      exact hiff.mp ⟨res, hres⟩

lemma getTxCriticals_ok_iff {tx : CalledTx} : (∃ c, getTxCriticals tags t tx = .ok c) ↔ tx.Decodable tags t := by
  unfold getTxCriticals CalledTx.Decodable
  cases tx.receiveAddress with
  | none => exact ⟨fun _ a h => (nomatch h), fun _ => ⟨_, rfl⟩⟩
  | some a =>
    dsimp only
    cases htags : tags a with
    | some tag =>
      cases tag with
      | none => exact ⟨fun _ a' h hne => by cases h; exact absurd htags hne, fun _ => ⟨_, rfl⟩⟩
      | some getParallelTag =>
        constructor
        · rintro ⟨c, hc⟩ a' h -
          cases h
          cases hfunc : getParamFunc tx.data with
          | error =>
            rw [hfunc] at hc
            cases hc
          | ok selector =>
            refine ⟨(getParamFunc_ok_iff.mp hfunc).1, fun hnone => ?_⟩
            rw [htags] at hnone
            cases hnone
        · intro h
          have hlen := (h a rfl (by simp [htags])).1
          rw [getParamFunc_ok_iff.mpr ⟨hlen, rfl⟩]
          exact ⟨_, rfl⟩
    | none =>
      constructor
      · rintro ⟨c, hc⟩ a' h -
        cases h
        obtain ⟨selector, hselector, hc⟩ := Except.bind_eq_ok_iff.mp hc
        obtain ⟨hlen, rfl⟩ := getParamFunc_ok_iff.mp hselector
        exact ⟨hlen, fun _ => criticals_ok_iff.mp ⟨c, hc⟩⟩
      · intro h
        obtain ⟨hlen, hread⟩ := h a rfl (by simp [htags])
        rw [getParamFunc_ok_iff.mpr ⟨hlen, rfl⟩, Except.bind]
        exact criticals_ok_iff.mpr (hread htags)

end

lemma TxDAG.init_eq_build {T : Type*} [DecidableEq T] (criticals : List (Option (List T))) :
    ∃ edges, (∀ e ∈ edges, e.1 < e.2 ∧ e.2 < criticals.length) ∧ init criticals = DAG.build criticals.length edges := by
  have hedges : ∀ k ≤ criticals.length, ∃ edges : List (Nat × Nat), (∀ e ∈ edges, e.1 < e.2 ∧ e.2 < k) ∧
      ((criticals.take k).zipIdx.foldl addTx (DAG.init criticals.length {}, {})).1 =
        edges.foldl (fun d e => d.addEdge e.1 e.2) (DAG.init criticals.length {}) := by
    intro k hk
    induction k with
    | zero => exact ⟨[], forall_mem_nil _, rfl⟩
    | succ k ih =>
      obtain ⟨edges, hup, hfold⟩ := ih (le_of_succ_le hk)
      have hordered := ordered_take criticals (le_of_succ_le hk)
      rw [take_succ_eq_append_getElem hk, zipIdx_append, foldl_append]
      simp only [length_take, zero_add, zipIdx_singleton, foldl_cons, foldl_nil,
        min_eq_left (le_of_succ_le hk), addTx_fst, hfold]
      generalize (criticals.take k).zipIdx.foldl addTx (DAG.init criticals.length {}, {}) = s at hordered
      refine ⟨edges ++ (preds s.2 criticals[k]).map (·, k), ?_, ?_⟩
      · intro e he
        rcases mem_append.mp he with he | he
        · exact ⟨(hup e he).1, lt_succ_of_lt (hup e he).2⟩
        · obtain ⟨p, hp, rfl⟩ := mem_map.mp he
          exact ⟨(hordered.holders p (mem_foreachField_of_mem_preds hp)).1, lt_succ_self k⟩
      · rw [foldl_append, foldl_map]
  obtain ⟨edges, hup, hfold⟩ := hedges criticals.length (le_refl _)
  rw [take_length] at hfold
  exact ⟨edges, hup, congrArg DAG.generate hfold⟩

namespace BlockExecution

variable {w : Nat} {R : Type*} {outcome : ParallelExecution w → Nat → TxOutcome R}

/-- The threads run as without receipts, and every transaction that was given to `consume` has its receipt. -/
structure Recorded (p : ParallelExecution w) (n : Nat) (s : BlockExecution w R) : Prop where
  aborted : s.aborted = none
  threads : s.threads = p
  size : s.receipts.length = n
  receipts : ∀ id, .consume id ∈ p.log → ∀ r ∈ s.receipts[id]?, r.isSome = true

lemma mem_log_step {p : ParallelExecution w} {i : Fin w} (hx : ∀ c id, p.workers i ≠ .execute c id) {id : Nat}
    (h : .consume id ∈ (p.step i).log) : .consume id ∈ p.log := by
  unfold ParallelExecution.step at h
  cases hw : p.workers i with
  | execute c id => exact absurd hw (hx c id)
  | waitPop =>
    rw [hw] at h
    dsimp only at h
    split at h <;> exact h
  | consume c id' l =>
    rw [hw] at h
    cases l with
    | nil =>
      dsimp only [endConsume] at h
      split at h <;> exact mem_of_ne_of_mem (by simp) h
    | cons =>
      dsimp only [release] at h
      repeat' split at h
      all_goals exact h
  | next =>
    rw [hw] at h
    exact mem_of_ne_of_mem (by simp) h
  | _ =>
    rw [hw] at h
    exact h

/-- The precompiled contracts that the next step calls are given a selector. -/
def LongInputs (outcome : ParallelExecution w → Nat → TxOutcome R) (p : ParallelExecution w) (i : Fin w) : Prop :=
  ∀ c id, p.workers i = .execute c id → ∀ input ∈ (outcome p id).inputs, 4 ≤ input.length

lemma Recorded.step {p : ParallelExecution w} {n : Nat} {s : BlockExecution w R} (h : Recorded p n s) {i : Fin w}
    (hi : LongInputs outcome p i) : Recorded (p.step i) n (s.step outcome i) := by
  obtain ⟨haborted, rfl, hsize, hreceipts⟩ := h
  unfold BlockExecution.step
  rw [haborted]
  cases hw : s.threads.workers i with
  | execute c id =>
    dsimp only
    rw [if_pos (hi c id hw)]
    refine ⟨rfl, rfl, by simpa using hsize, fun id' hid' r hr => ?_⟩
    rw [mem_def, getElem?_set] at hr
    split_ifs at hr with heq hlt
    · cases hr
      rfl
    · simp only [ParallelExecution.step, hw] at hid'
      exact hreceipts id' (mem_of_ne_of_mem (fun h => heq (by cases h; rfl)) hid') r hr
  | _ =>
    refine ⟨rfl, rfl, hsize, fun id hid => hreceipts id (mem_log_step ?_ hid)⟩
    intro c id
    rw [hw]
    simp

lemma recorded_start (d : DAG) (n : Nat) : Recorded (.start d : ParallelExecution w) n (start d n : BlockExecution w R) :=
  ⟨rfl, rfl, length_replicate, fun _ hid => absurd hid not_mem_nil⟩

lemma recorded_run {p : ParallelExecution w} {n : Nat} {s : BlockExecution w R} (h : Recorded p n s)
    {schedule : List (Fin w)} (hs : Along .step (LongInputs outcome) p schedule) :
    Recorded (run .step p schedule) n (run (step outcome) s schedule) := by
  induction schedule generalizing p s with
  | nil => exact h
  | cons i schedule ih => exact ih (h.step hs.1) hs.2

lemma run_of_aborted {s : BlockExecution w R} {e : BlockError} (h : s.aborted = some e) (schedule : List (Fin w)) :
    (run (step outcome) s schedule).aborted = some e := by
  refine run_induction (fun s : BlockExecution w R => s.aborted = some e) (fun s i hs => ?_) h schedule
  unfold step
  rw [hs]
  exact hs

/-- A precompiled contract that is called with less than 4 bytes ends the execution. -/
lemma aborted_of_not_along {p : ParallelExecution w} {n : Nat} {s : BlockExecution w R} (h : Recorded p n s)
    {schedule : List (Fin w)} (hs : ¬Along .step (LongInputs outcome) p schedule) :
    (run (step outcome) s schedule).aborted = some .nullPointer := by
  induction schedule generalizing p s with
  | nil => exact absurd trivial hs
  | cons i schedule ih =>
    by_cases hi : LongInputs outcome p i
    · exact ih (h.step hi) fun hrest => hs ⟨hi, hrest⟩
    · refine run_of_aborted ?_ schedule
      obtain ⟨haborted, rfl, -, -⟩ := h
      unfold LongInputs at hi
      push Not at hi
      obtain ⟨c, id, hw, input, hinput, hlt⟩ := hi
      unfold BlockExecution.step
      rw [haborted, hw]
      dsimp only
      rw [if_neg fun hall => absurd (hall input hinput) (not_le.mpr hlt)]

/-- Once nothing is left to do, all transactions have been given to `consume`. -/
theorem consume_mem_log {d : DAG} {p : ParallelExecution w} {rest : Nat → List Nat} (h : p.Counted d rest)
    (hup : ∀ f t, d.Edge f t → f < t) (hw : 0 < w) (hend : p.Idle ∨ p.Stuck) {t : Nat} (ht : t < d.vtxs.length) :
    .consume t ∈ p.log := by
  have hheld : ∀ i, (p.workers i).executing = [] := by
    rcases hend with hidle | hstuck
    · intro i
      have := hidle.2 i
      cases hx : p.workers i <;> simp_all [Worker.held, Worker.executing]
    · intro i
      rw [hstuck]
      rfl
  have hone : p.log.count (.execute t) = 1 := by
    rcases hend with hidle | hstuck
    · exact h.executed_of_idle hup hidle ht
    · exact h.executed_of_stuck hw hstuck ht
  have hconsumed := h.executed t
  have hconsume := h.consumed t
  simp only [hheld, count_nil, Finset.sum_const_zero, zero_add] at hconsumed
  rw [← count_pos_iff]
  omega

/-- In every execution nothing but the comparison of the headers fails, and once nothing is left to do every transaction
has a receipt. -/
def Executable (tags : ParallelTags) (t : ParallelTables) (txs : List CalledTx)
    (outcome : ParallelExecution w → Nat → TxOutcome R) : Prop :=
  ∃ d, initTxs tags t txs = .ok d ∧ ∀ (sameHeader : List (Option R) → Bool) (schedule : List (Fin w)),
    ∃ receipts : List (Option R), receipts.length = txs.length ∧
      parallelExecuteBlock tags t txs outcome sameHeader schedule =
        (if sameHeader receipts then .ok receipts else .error .badStateOrReceipt) ∧
      ((run .step (.start d : ParallelExecution w) schedule).Idle ∨
        (run .step (.start d : ParallelExecution w) schedule).Stuck → ∀ r ∈ receipts, r.isSome = true)

section

variable {tags : ParallelTags} {t : ParallelTables} {txs : List CalledTx}

lemma initTxs_ok_iff : (∃ d, initTxs tags t txs = .ok d) ↔ ∀ tx ∈ txs, tx.Decodable tags t := by
  simp only [← getTxCriticals_ok_iff, ← Except.exists_mapM_iff, initTxs]
  cases txs.mapM (getTxCriticals tags t) with
  | error => exact ⟨fun ⟨_, h⟩ => (nomatch h), fun ⟨_, h⟩ => (nomatch h)⟩
  | ok cs => exact ⟨fun _ => ⟨cs, rfl⟩, fun _ => ⟨_, rfl⟩⟩

lemma exists_criticals {d : DAG} (h : initTxs tags t txs = .ok d) :
    ∃ cs : List (Option (List Str)), d = init cs ∧ cs.length = txs.length := by
  unfold initTxs at h
  cases hcs : txs.mapM (getTxCriticals tags t) with
  | error =>
    rw [hcs] at h
    cases h
  | ok cs =>
    rw [hcs] at h
    exact ⟨cs, (Except.ok.inj h).symm, Except.length_of_mapM hcs⟩

lemma isSome_of_idle {d : DAG} (hd : initTxs tags t txs = .ok d) (hw : 0 < w) {schedule : List (Fin w)}
    {s : BlockExecution w R} (h : Recorded (run .step (.start d) schedule) txs.length s)
    (hend : (run .step (.start d : ParallelExecution w) schedule).Idle ∨
      (run .step (.start d : ParallelExecution w) schedule).Stuck) : ∀ r ∈ s.receipts, r.isSome = true := by
  intro r hr
  obtain ⟨cs, rfl, hlen⟩ := exists_criticals hd
  obtain ⟨edges, hedges, hbuild⟩ := init_eq_build cs
  obtain ⟨⟨hsize, hedge⟩, rest, hcounted⟩ := ParallelExecution.counted_run (w := w) hedges
  rw [← hbuild] at hsize hedge hcounted
  obtain ⟨id, hid, hget⟩ := mem_iff_getElem.mp hr
  have hlt : id < (init cs).vtxs.length := by
    rw [hsize, hlen, ← h.size]
    exact hid
  have hmem := consume_mem_log hcounted (fun f t hft => (hedges _ ((hedge f t).mp hft)).1) hw hend hlt
  exact h.receipts id hmem r (by rw [getElem?_eq_getElem hid, hget]; rfl)

end

lemma byte_replicate {c : Char} (h : c ∈ replicate 20 'a') : c.toNat < 256 := by
  rw [eq_of_mem_replicate h]
  decide

def account : H160 :=
  ⟨replicate 20 'a', rfl, fun _ h => byte_replicate h⟩

def oneFunction : ParallelTables :=
  run (.call fun _ => 0) (fun _ _ => none) [.registerParallelFunction account "f(string)".toList 1]

def sampleOutcome (inputs : List (List UInt8)) (_ : ParallelExecution 1) (_ : Nat) : TxOutcome Unit :=
  ⟨(), inputs⟩

end BlockExecution

end FiscoBcos
