import FiscoBcos.Storage.BinLogFiles

/-!
# Recovery from the binary log

The handler finds the last block and the missing blocks, if a crash leaves of the block that was being written nothing, or
at least its length in a file with blocks before it, or at most the version in a new file.
-/

namespace FiscoBcos

open List Option FixedWidth Prod

namespace BinLog

variable {crc32 : List UInt8 → Nat} {file tail : List UInt8} {bs : List Block} {b : Block}

section

open BinLogHandler

variable {binarylogSize : Nat} {relative : Bool} {h : BinLogHandler} {cs : List (List Block)}

structure Written (crc32 : List UInt8 → Nat) (h : BinLogHandler) (bs : List Block) (cs : List (List Block)) :
    Prop where
  files : h.files = cs.map fun c => logFile crc32 (c, [])
  blocks : cs.reverse.flatten = bs
  nonempty : ∀ c ∈ cs, c ≠ []
  small : ∀ c ∈ cs, (fileBytes crc32 c []).length < 2 ^ 32
  length : h.writtenBytesLength = 0 ∨ ∃ c older, cs = c :: older ∧ h.writtenBytesLength = (fileBytes crc32 c []).length

lemma fileBytes_append (bs : List Block) (b : Block) (tail : List UInt8) :
    fileBytes crc32 (bs ++ [b]) tail = fileBytes crc32 bs (encodeBlock crc32 b ++ tail) := by
  unfold fileBytes encodeBlocks
  rw [flatMap_append, flatMap_singleton, append_assoc]

lemma checkBinLogSize_logFiles {cs : List (List Block × List UInt8)} (hne : ∀ c ∈ cs, c.1 ≠ []) :
    checkBinLogSize relative (cs.map (logFile crc32)) = cs.map (logFile crc32) := by
  unfold checkBinLogSize
  split
  · apply filter_eq_self.mpr
    intro file hfile
    obtain ⟨c, hc, rfl⟩ := mem_map.mp hfile
    obtain ⟨b, bs, hcons⟩ := exists_cons_of_ne_nil (hne c hc)
    apply decide_eq_true
    change 4 < (fileBytes crc32 c.1 c.2).length
    rw [hcons, length_fileBytes, encodeBlocks_cons, length_append, length_encodeBlock]
    omega
  · rfl

section

variable (hw : Written crc32 h bs cs)

include hw

lemma Written.start : Written crc32 (start relative h.files) bs cs where
  files := by
    have hfiles : h.files = (cs.map fun c => (c, ([] : List UInt8))).map (logFile crc32) := by
      rw [hw.files, List.map_map]
      rfl
    change checkBinLogSize relative h.files = _
    rw [hfiles, checkBinLogSize_logFiles, ← hfiles, hw.files]
    intro c hc
    obtain ⟨c', hc', rfl⟩ := mem_map.mp hc
    exact hw.nonempty c' hc'
  blocks := hw.blocks
  nonempty := hw.nonempty
  small := hw.small
  length := .inl rfl

lemma Written.newest (hnew : ¬NewFile crc32 binarylogSize h b) :
    ∃ c older, cs = c :: older ∧ h.writtenBytesLength = (fileBytes crc32 c []).length ∧
      (fileBytes crc32 c []).length + (encodeBlock crc32 b).length ≤ binarylogSize := by
  have hzero := fun hzero => hnew (.inl hzero)
  obtain ⟨c, older, hcs, hlen⟩ := hw.length.resolve_left hzero
  have hle : ¬h.writtenBytesLength + (encodeBlock crc32 b).length > binarylogSize := fun hgt => hnew (.inr hgt)
  exact ⟨c, older, hcs, hlen, by omega⟩

lemma Written.write (hsize : binarylogSize < 2 ^ 32) (hb : b.Loggable crc32) :
    ∃ cs', Written crc32 (writeBlocktoBinLog crc32 binarylogSize h b) (bs ++ [b]) cs' := by
  by_cases hnew : NewFile crc32 binarylogSize h b
  · -- the block starts a file
    have hone : fileBytes crc32 [b] [] = encode 4 BINLOG_VERSION ++ encodeBlock crc32 b := by
      unfold fileBytes encodeBlocks
      rw [flatMap_singleton, append_nil]
    have hlen : (fileBytes crc32 [b] []).length = 4 + (encodeBlock crc32 b).length := by
      rw [hone, length_append, length_encode]
    have hsmall : (fileBytes crc32 [b] []).length < 2 ^ 32 := by
      have hlt := hb.length_lt
      rw [hlen, length_encodeBlock]
      omega
    refine ⟨[b] :: cs, ?_, ?_, ?_, ?_, .inr ⟨[b], cs, rfl, ?_⟩⟩
    · change appended crc32 binarylogSize h b (output crc32 binarylogSize h b) = _
      unfold appended output
      rw [if_pos hnew, if_pos hnew, ← hone, hw.files]
      rfl
    · rw [reverse_cons, flatten_append, hw.blocks, flatten_singleton]
    · exact forall_mem_cons.mpr ⟨cons_ne_nil _ _, hw.nonempty⟩
    · exact forall_mem_cons.mpr ⟨hsmall, hw.small⟩
    · change (if NewFile crc32 binarylogSize h b then _ else _) % 2 ^ 32 = _
      rw [if_pos hnew, ← hlen, Nat.mod_eq_of_lt hsmall]
  · obtain ⟨c, older, rfl, hlength, hle⟩ := hw.newest hnew
    have happend : fileBytes crc32 (c ++ [b]) [] = fileBytes crc32 c [] ++ encodeBlock crc32 b := by
      rw [fileBytes_append]
      unfold fileBytes
      rw [append_nil, append_nil, append_assoc]
    have hlen := congrArg List.length happend
    rw [length_append] at hlen
    have hhead : (logFile crc32 (c, [])).num = (logFile crc32 (c ++ [b], [])).num := by
      obtain ⟨b', c', rfl⟩ := exists_cons_of_ne_nil (hw.nonempty c mem_cons_self)
      rfl
    refine ⟨(c ++ [b]) :: older, ?_, ?_, ?_, ?_, .inr ⟨c ++ [b], older, rfl, ?_⟩⟩
    · change appended crc32 binarylogSize h b (output crc32 binarylogSize h b) = _
      unfold appended output
      rw [if_neg hnew, if_neg hnew, hw.files, map_cons, modifyHead_cons, map_cons]
      refine congrArg (· :: _) ?_
      change BinLogFile.mk (logFile crc32 (c, [])).num (fileBytes crc32 c [] ++ encodeBlock crc32 b) = _
      rw [hhead, ← happend]
      rfl
    · rw [← hw.blocks, reverse_cons, reverse_cons, flatten_append, flatten_append,
        flatten_singleton, flatten_singleton, append_assoc]
    · exact forall_mem_cons.mpr ⟨append_ne_nil_of_right_ne_nil _ (cons_ne_nil _ _), (forall_mem_cons.mp hw.nonempty).2⟩
    · exact forall_mem_cons.mpr ⟨by omega, (forall_mem_cons.mp hw.small).2⟩
    · change (if NewFile crc32 binarylogSize h b then _ else _) % 2 ^ 32 = _
      rw [if_neg hnew, hlength, ← hlen, Nat.mod_eq_of_lt (by omega)]

end

lemma Written.run (hsize : binarylogSize < 2 ^ 32) {ops : List (Bool × Block)} (hops : ∀ op ∈ ops, op.2.Loggable crc32)
    : ∃ cs, Written crc32 (ops.foldl (fun h op => step crc32 binarylogSize h relative op) {}) (ops.map snd) cs := by
  induction ops using reverseRecOn with
  | nil => exact ⟨[], rfl, rfl, forall_mem_nil _, forall_mem_nil _, .inl rfl⟩
  | append_singleton ops op ih =>
    obtain ⟨cs, hw⟩ := ih fun op' hop' => hops op' (mem_append_left _ hop')
    have hb := hops op (mem_append_right _ (mem_singleton_self _))
    rw [foldl_append, map_append]
    change ∃ cs, Written crc32 (writeBlocktoBinLog crc32 binarylogSize (if op.1 then _ else _) op.2) _ cs
    split
    · exact hw.start.write hsize hb
    · exact hw.write hsize hb

end

section Recovery

open BinLogHandler

def Recovers (files : List BinLogFile) (bs : List Block) (last : Nat) : Prop :=
  getLastBlockNum files = some (last : Int) ∧
    ∀ startNum, ∃ blocksData, getMissingBlocksFromBinLog files startNum last = some blocksData ∧
      ∀ (i : Int) (datas : List LogTable), blocksData[i]? = some datas ↔
        ∃ b ∈ bs, (b.num : Int) = i ∧ startNum < i ∧ i ≤ last ∧ datas = b.datas.map LogTable.logged

/-- What a crash may leave of the next block. In a new file that is at most the version, if such a file is removed. In a
file with blocks it is nothing, or the whole length. -/
def Recoverable (crc32 : List UInt8 → Nat) (binarylogSize : Nat) (relative : Bool) (h : BinLogHandler) (last : Nat) :
    Option (Block × Nat) → Prop
  | none => True
  | some (b, cut) =>
    if NewFile crc32 binarylogSize h b then (cut ≤ 4 ∧ relative = true) ∨ (16 ≤ cut ∧ last = 0)
    else cut = 0 ∨ 4 ≤ cut

instance (crc32 : List UInt8 → Nat) (binarylogSize : Nat) (relative : Bool) (h : BinLogHandler) (last : Nat) :
    ∀ torn, Decidable (Recoverable crc32 binarylogSize relative h last torn)
  | none => inferInstanceAs (Decidable True)
  | some (b, cut) => inferInstanceAs (Decidable (if NewFile crc32 binarylogSize h b then
      (cut ≤ 4 ∧ relative = true) ∨ (16 ≤ cut ∧ last = 0) else cut = 0 ∨ 4 ≤ cut))

variable {binarylogSize : Nat} {relative : Bool} {h : BinLogHandler} {files : List BinLogFile} {last : Block}
  {cs : List (List Block × List UInt8)}

lemma getMissing_of_readFiles (hsorted : sorted files = files) (hnodup : (bs.map Block.num).Nodup)
    (hread : ∀ startNum, readFiles startNum last.num files ∅ = some (collect startNum last.num bs ∅)) (startNum : Int) :
    ∃ blocksData, getMissingBlocksFromBinLog files startNum last.num = some blocksData ∧
      ∀ (i : Int) (datas : List LogTable), blocksData[i]? = some datas ↔
        ∃ b ∈ bs, (b.num : Int) = i ∧ startNum < i ∧ i ≤ last.num ∧ datas = b.datas.map LogTable.logged := by
  by_cases hempty : (last.num : Int) ≤ startNum
  · refine ⟨∅, if_pos hempty, fun i datas => ?_⟩
    exact ⟨nofun, fun ⟨_, _, _, hlt, hle, _⟩ => absurd hempty (by omega)⟩
  refine ⟨collect startNum last.num bs ∅, ?_, fun i datas => getElem?_collect hnodup⟩
  unfold getMissingBlocksFromBinLog
  rw [if_neg hempty, hsorted]
  exact hread startNum

lemma LogFiles.nodup (h : LogFiles crc32 cs) : ((cs.flatMap fst).map Block.num).Nodup := by
  apply pairwise_map.mpr
  apply pairwise_flatMap.mpr
  refine ⟨fun c hc => (h.ascending c hc).imp fun hlt => ne_of_lt hlt, h.newer.imp fun hlt y hy x hx => ?_⟩
  exact (ne_of_lt (hlt x hx y hy)).symm

lemma recovers_logFiles {c : List Block × List UInt8} (h : LogFiles crc32 (c :: cs)) (htail : c.2 = [] ∨ 4 ≤ c.2.length)
    (hlast : c.1.getLast? = some last) : Recovers ((c :: cs).map (logFile crc32)) ((c :: cs).flatMap fst) last.num :=
  ⟨getLastBlockNum_eq h htail hlast,
    getMissing_of_readFiles (sorted_logFiles h) h.nodup fun startNum => readFiles_eq h startNum last.num ∅⟩

lemma recovers_congr {bs' : List Block} {last : Nat} (h : ∀ b, b ∈ bs ↔ b ∈ bs') :
    Recovers files bs last ↔ Recovers files bs' last := by
  simp only [Recovers, h]

section

variable {cut : Nat}

lemma getFirstBlockNumInBinLog_short (h : file.length < 16) : getFirstBlockNumInBinLog file = -1 := by
  unfold getFirstBlockNumInBinLog
  cases getBinLogContext file with
  | none => rfl
  | some =>
    unfold FixedWidth.read FixedWidth.readBytes
    rw [length_drop]
    by_cases hlen : file.length - 4 < 4
    · rw [if_pos hlen]
      rfl
    rw [if_neg hlen]
    dsimp only [map_some, bind_some]
    rw [length_drop, length_drop, if_pos (by omega)]
    rfl

lemma getLastBlockNum_short (hlen : file.length < 16) {num : Nat}
    (hsorted : sorted (⟨num, file⟩ :: files) = ⟨num, file⟩ :: files) : getLastBlockNum (⟨num, file⟩ :: files) = none := by
  unfold getLastBlockNum
  rw [hsorted]
  dsimp only
  rw [getFirstBlockNumInBinLog_short hlen, if_pos (by omega)]

/-- A file whose only block is cut off. -/
def tornFile (crc32 : List UInt8 → Nat) (b : Block) (cut : Nat) : List UInt8 :=
  fileBytes crc32 [] ((encodeBlock crc32 b).take cut)

section

variable (hb : b.Loggable crc32) (hcut : 12 ≤ cut) (hsmall : (tornFile crc32 b cut).length < 2 ^ 32)
include hb hcut hsmall

lemma getFirstBlockNumInBinLog_torn : getFirstBlockNumInBinLog (tornFile crc32 b cut) = b.num := by
  obtain ⟨rest, hnum⟩ := read_num hb
  rw [append_nil] at hnum
  unfold tornFile at hsmall ⊢
  unfold getFirstBlockNumInBinLog
  rw [getBinLogContext_fileBytes hsmall, bind_some, drop_fileBytes]
  change ((read 4 ((encodeBlock crc32 b).take cut)).bind _).elim _ _ = _
  rw [read_length_take hb (by omega), bind_some, read_take 8 (by omega), hnum]
  exact if_pos hb.num_lt

lemma readFiles_torn {startNum endNum : Int} (hend : endNum < b.num) (blocksData : BlockDataMap) :
    readFiles startNum endNum (⟨b.num, tornFile crc32 b cut⟩ :: files) blocksData =
      readFiles startNum endNum files blocksData := by
  conv_lhs => unfold readFiles
  rw [getFirstBlockNumInBinLog_torn hb hcut hsmall, if_neg (not_not.mpr rfl), if_pos hend]

lemma getLastBlockNum_torn (hlt : cut < (encodeBlock crc32 b).length)
    (hsorted : sorted (⟨b.num, tornFile crc32 b cut⟩ :: files) = ⟨b.num, tornFile crc32 b cut⟩ :: files) :
    getLastBlockNum (⟨b.num, tornFile crc32 b cut⟩ :: files) = some 0 := by
  have hfour : 4 ≤ ((encodeBlock crc32 b).take cut).length := by
    rw [length_take]
    omega
  obtain ⟨k, hnum⟩ := getLastBlockNum_cons (forall_mem_nil _) hsmall (getFirstBlockNumInBinLog_torn hb hcut hsmall) hsorted
  rw [lastBlockNum_end (.inr ⟨b, cut, hb, hlt, rfl⟩) (.inr hfour)] at hnum
  exact hnum

end

lemma checkBinLogSize_cons {f : BinLogFile} (hfiles : checkBinLogSize relative files = files) :
    checkBinLogSize relative (f :: files) = if relative = true ∧ f.bytes.length ≤ 4 then files else f :: files := by
  unfold checkBinLogSize at hfiles ⊢
  cases relative with
  | false =>
    rw [if_neg (by decide), if_neg fun h => by cases h.1]
  | true =>
    rw [if_pos rfl] at hfiles ⊢
    by_cases hlen : f.bytes.length ≤ 4
    · rw [filter_cons_of_neg (by simp; omega), hfiles, if_pos ⟨rfl, hlen⟩]
    · rw [filter_cons_of_pos (by simp; omega), hfiles, if_neg fun h => hlen h.2]

end

section

/-- The files, the newest one with what a crash has left. -/
def tailed (c : List Block) (older : List (List Block)) (tail : List UInt8) : List (List Block × List UInt8) :=
  (c, tail) :: older.map fun c => (c, [])

variable {c : List Block} {older : List (List Block)} {cut : Nat}

lemma forall_tailed {p : List Block × List UInt8 → Prop} (hnewest : p (c, tail)) (holder : ∀ c' ∈ older, p (c', [])) :
    ∀ c' ∈ tailed c older tail, p c' :=
  forall_mem_cons.mpr ⟨hnewest, forall_mem_map.mpr holder⟩

variable (hw : Written crc32 h bs (c :: older))
include hw

namespace Written

lemma mem_iff (b : Block) : b ∈ (tailed c older tail).flatMap fst ↔ b ∈ bs := by
  rw [← hw.blocks]
  simp [tailed, mem_flatten, or_comm]

lemma getLast?_eq : c.getLast? = bs.getLast? := by
  have hc := hw.nonempty c mem_cons_self
  rw [← hw.blocks, reverse_cons, flatten_append, flatten_singleton, getLast?_append_of_ne_nil _ hc]

lemma files_eq : h.files = (tailed c older []).map (logFile crc32) := by
  rw [hw.files, tailed, List.map_cons, List.map_cons, List.map_map]
  rfl

lemma nonempty_tail : ∀ c' ∈ tailed c older tail, c'.1 ≠ [] :=
  forall_tailed (hw.nonempty c mem_cons_self) (forall_mem_cons.mp hw.nonempty).2

lemma checkBinLogSize_eq : checkBinLogSize relative h.files = h.files := by
  rw [hw.files_eq]
  exact checkBinLogSize_logFiles hw.nonempty_tail

variable (hbs : ∀ b ∈ bs, b.Loggable crc32) (hasc : bs.Pairwise fun a b => a.num < b.num)
include hbs hasc

lemma logFiles (htorn : Torn crc32 tail) (hsmall : (fileBytes crc32 c tail).length < 2 ^ 32) :
    LogFiles crc32 (tailed c older tail) := by
  have hmem : ∀ c' ∈ c :: older, ∀ b ∈ c', b.Loggable crc32 := by
    intro c' hc' b hb
    apply hbs
    rw [← hw.blocks]
    exact mem_flatten_of_mem (mem_reverse.mpr hc') hb
  have hpairs := pairwise_flatten.mp (hw.blocks.symm ▸ hasc)
  have hcons := pairwise_cons.mp (pairwise_reverse.mp hpairs.2)
  refine ⟨hw.nonempty_tail, ?_, ?_, ?_, ?_, ?_⟩
  · exact forall_tailed (hmem c mem_cons_self) (forall_mem_cons.mp hmem).2
  · exact forall_tailed htorn fun _ _ => .inl rfl
  · exact forall_tailed hsmall (forall_mem_cons.mp hw.small).2
  · refine forall_tailed (hpairs.1 c (mem_reverse.mpr mem_cons_self)) fun c' hc' => ?_
    exact hpairs.1 c' (mem_reverse.mpr (mem_cons_of_mem _ hc'))
  · exact pairwise_cons.mpr ⟨forall_mem_map.mpr hcons.1, pairwise_map.mpr hcons.2⟩

lemma sorted_files : sorted h.files = h.files := by
  rw [hw.files_eq]
  exact sorted_logFiles (hw.logFiles hbs hasc (.inl rfl) (hw.small c mem_cons_self))

lemma sorted_cons (hnum : ∀ b' ∈ bs, b'.num < b.num) (bytes : List UInt8) :
    sorted (⟨b.num, bytes⟩ :: h.files) = ⟨b.num, bytes⟩ :: h.files := by
  have hinsert : sorted (⟨b.num, bytes⟩ :: h.files) = (sorted h.files).orderedInsert (fun a b => b.num ≤ a.num)
      ⟨b.num, bytes⟩ := rfl
  rw [hinsert, hw.sorted_files hbs hasc, hw.files, map_cons]
  apply orderedInsert_cons_of_le
  obtain ⟨b', c', hc⟩ := exists_cons_of_ne_nil (hw.nonempty c mem_cons_self)
  have hmem : b' ∈ bs := by
    rw [← hw.blocks, mem_flatten]
    exact ⟨c, mem_reverse.mpr mem_cons_self, by rw [hc]; exact mem_cons_self⟩
  rw [num_logFile hc]
  exact le_of_lt (hnum b' hmem)

variable (hlast : bs.getLast? = some last)
include hlast

lemma recovers (htorn : Torn crc32 tail) (hsmall : (fileBytes crc32 c tail).length < 2 ^ 32)
    (htail : tail = [] ∨ 4 ≤ tail.length) : Recovers ((tailed c older tail).map (logFile crc32)) bs last.num := by
  apply (recovers_congr hw.mem_iff).mp
  exact recovers_logFiles (hw.logFiles hbs hasc htorn hsmall) htail (hw.getLast?_eq.trans hlast)

lemma recovers_self : Recovers h.files bs last.num := by
  rw [hw.files_eq]
  exact hw.recovers hbs hasc hlast (.inl rfl) (hw.small c mem_cons_self) (.inl rfl)

lemma recovers_new_iff (hnum : ∀ b' ∈ bs, b'.num < b.num) (hb : b.Loggable crc32)
    (hcut : cut < 4 + (encodeBlock crc32 b).length) : Recovers (checkBinLogSize relative
        (⟨b.num, (encode 4 BINLOG_VERSION ++ encodeBlock crc32 b).take cut⟩ :: h.files)) bs last.num ↔
      (cut ≤ 4 ∧ relative = true) ∨ (16 ≤ cut ∧ last.num = 0) := by
  have hlen : ((encode 4 BINLOG_VERSION ++ encodeBlock crc32 b).take cut).length = cut := by
    rw [length_take, length_append, length_encode]
    omega
  have hlastnum := hnum last (mem_of_getLast? hlast)
  have hsorted := hw.sorted_cons hbs hasc hnum
  have hself := hw.recovers_self hbs hasc hlast
  rw [checkBinLogSize_cons hw.checkBinLogSize_eq, hlen]
  by_cases hremoved : relative = true ∧ cut ≤ 4
  · rw [if_pos hremoved]
    exact ⟨fun _ => .inl hremoved.symm, fun _ => hself⟩
  rw [if_neg hremoved]
  by_cases hshort : cut < 16
  · -- the first block has no number
    have hnone := getLastBlockNum_short (hlen.trans_lt hshort) (hsorted _)
    constructor
    · intro hrec
      cases hnone.symm.trans hrec.1
    · intro h
      cases h with
      | inl h => exact absurd h.symm hremoved
      | inr => omega
  · -- the number is there, the block is not
    have htake : (encode 4 BINLOG_VERSION ++ encodeBlock crc32 b).take cut = tornFile crc32 b (cut - 4) := by
      rw [take_append, length_encode, take_of_length_le]
      · rfl
      · rw [length_encode]
        omega
    have hsmall : (tornFile crc32 b (cut - 4)).length < 2 ^ 32 := by
      have hlt := hb.length_lt
      rw [length_encodeBlock] at hcut
      rw [← htake, hlen]
      omega
    have hzero := getLastBlockNum_torn hb (by omega) hsmall (by omega) (hsorted _)
    rw [htake]
    constructor
    · intro hrec
      have heq := hzero.symm.trans hrec.1
      refine .inr ⟨by omega, ?_⟩
      have hint := some.inj heq
      omega
    · intro h
      have hlast0 : last.num = 0 := by
        cases h with
        | inl => omega
        | inr h => exact h.2
      refine ⟨hzero.trans (by rw [hlast0]; rfl), fun startNum => ?_⟩
      obtain ⟨blocksData, hmissing, hspec⟩ := hself.2 startNum
      refine ⟨blocksData, ?_, hspec⟩
      rw [← hmissing]
      unfold getMissingBlocksFromBinLog
      rw [hsorted, hw.sorted_files hbs hasc, readFiles_torn hb (by omega) hsmall (by omega)]

lemma recovers_old_iff (hb : b.Loggable crc32)
    (hsmall : (fileBytes crc32 c []).length + (encodeBlock crc32 b).length < 2 ^ 32)
    (hcut : cut < (encodeBlock crc32 b).length) : Recovers (checkBinLogSize relative (h.files.modifyHead fun file =>
        { file with bytes := file.bytes ++ (encodeBlock crc32 b).take cut })) bs last.num ↔ cut = 0 ∨ 4 ≤ cut := by
  have hlen : ((encodeBlock crc32 b).take cut).length = cut := by
    rw [length_take]
    omega
  have happend : fileBytes crc32 c [] ++ (encodeBlock crc32 b).take cut =
      fileBytes crc32 c ((encodeBlock crc32 b).take cut) := by
    unfold fileBytes
    rw [append_nil, append_assoc]
  have hlt : (fileBytes crc32 c ((encodeBlock crc32 b).take cut)).length < 2 ^ 32 := by
    rw [← happend, length_append, hlen]
    omega
  have hfiles : h.files.modifyHead (fun file => { file with bytes := file.bytes ++ (encodeBlock crc32 b).take cut }) =
      (tailed c older ((encodeBlock crc32 b).take cut)).map (logFile crc32) := by
    rw [hw.files_eq, tailed, tailed, map_cons, modifyHead_cons, map_cons]
    refine congrArg (· :: _) ?_
    change BinLogFile.mk _ (fileBytes crc32 c [] ++ (encodeBlock crc32 b).take cut) = _
    rw [happend]
    rfl
  have htorn : Torn crc32 ((encodeBlock crc32 b).take cut) := .inr ⟨b, cut, hb, hcut, rfl⟩
  have hlog := hw.logFiles hbs hasc htorn hlt
  rw [hfiles, checkBinLogSize_logFiles hw.nonempty_tail]
  constructor
  · -- one to three bytes cannot be read as a length
    intro hrec
    by_contra hnot
    have hcut : 0 < cut ∧ cut < 4 := by omega
    have htornNum := getLastBlockNum_tail hlog (hcut.1.trans_eq hlen.symm) (hlen.trans_lt hcut.2)
    have hint := some.inj (htornNum.symm.trans hrec.1)
    omega
  · intro h
    refine hw.recovers hbs hasc hlast htorn hlt (h.imp (fun hzero => ?_) fun hfour => ?_)
    · rw [hzero]
      rfl
    · omega

end Written

end

/-- Blocks have been written, by one handler or by several, and a crash comes in the middle of the next one or before
it. Then the last block and the blocks before it are found if and only if the crash leaves nothing else than it may. -/
theorem recovers_iff (crc32 : List UInt8 → Nat) {binarylogSize : Nat} (hsize : binarylogSize < 2 ^ 32) (relative : Bool)
    {ops : List (Bool × Block)} (hops : ∀ op ∈ ops, op.2.Loggable crc32)
    (hasc : ops.Pairwise fun a b => a.2.num < b.2.num) {last : Block} (hlast : (ops.map snd).getLast? = some last)
    (restart : Bool) (torn : Option (Block × Nat)) :
    let written := ops.foldl (fun h op => step crc32 binarylogSize h relative op) {}
    let h := if restart then start relative written.files else written
    (∀ b cut, torn = some (b, cut) →
        last.num < b.num ∧ b.Loggable crc32 ∧ cut < (output crc32 binarylogSize h b).length) →
      (Recovers (checkBinLogSize relative (crash crc32 binarylogSize h torn)) (ops.map snd) last.num ↔
        Recoverable crc32 binarylogSize relative h last.num torn) := by
  intro written h hnext
  obtain ⟨cs, hrun⟩ : ∃ cs, Written crc32 written (ops.map snd) cs := Written.run hsize hops
  have hw : Written crc32 h (ops.map snd) cs := by
    change Written crc32 (if restart then start relative written.files else written) _ cs
    split
    · exact hrun.start
    · exact hrun
  have hbs : ∀ b ∈ ops.map snd, b.Loggable crc32 := forall_mem_map.mpr hops
  have hpairs : (ops.map snd).Pairwise fun a b => a.num < b.num := pairwise_map.mpr hasc
  cases cs with
  | nil =>
    rw [← hw.blocks] at hlast
    cases hlast
  | cons =>
    cases torn with
    | none =>
      change Recovers (checkBinLogSize relative h.files) _ _ ↔ True
      rw [hw.checkBinLogSize_eq]
      exact iff_true_intro (hw.recovers_self hbs hpairs hlast)
    | some torn =>
      obtain ⟨b, cut⟩ := torn
      obtain ⟨hnum, hb, hcut⟩ := hnext b cut rfl
      change Recovers (checkBinLogSize relative
        (appended crc32 binarylogSize h b ((output crc32 binarylogSize h b).take cut))) _ _ ↔
        if NewFile crc32 binarylogSize h b then _ else _
      unfold output at hcut
      unfold appended output
      by_cases hnew : NewFile crc32 binarylogSize h b
      · rw [if_pos hnew, length_append, FixedWidth.length_encode] at hcut
        rw [if_pos hnew, if_pos hnew, if_pos hnew]
        refine hw.recovers_new_iff hbs hpairs hlast (fun b' hb' => ?_) hb hcut
        obtain ⟨before, hsplit⟩ := getLast?_eq_some_iff.mp hlast
        rw [hsplit] at hb' hpairs
        cases mem_append.mp hb' with
        | inl hmem => exact ((pairwise_append.mp hpairs).2.2 b' hmem last (mem_singleton_self _)).trans hnum
        | inr hmem =>
          rw [mem_singleton.mp hmem]
          exact hnum
      · rw [if_neg hnew] at hcut
        rw [if_neg hnew, if_neg hnew, if_neg hnew]
        obtain ⟨c', older', hcons, -, hle⟩ := hw.newest hnew
        cases hcons
        exact hw.recovers_old_iff hbs hpairs hlast hb (by omega) hcut

/-- A table in which a row has changed and a row is new. -/
def rowTable : LogTable where
  name := ascii "t"
  key := ascii "k"
  fields := ascii "v" :: reserved
  dirtyEntries := [⟨1, 0, .ofList [(ascii "k", ascii "a"), (ascii "v", ascii "1")], false⟩]
  newEntries := [⟨2, 0, .ofList [(ascii "k", ascii "b")], false⟩]

def rowBlock (num : Nat) : Block :=
  ⟨num, [rowTable]⟩

lemma loggable_of_toList {e : LogEntry} (hid : e.id < 2 ^ 64) (h : ∀ f ∈ e.fields.toList, f.2.length < 2 ^ 32) :
    e.Loggable :=
  ⟨hid, fun hget => h _ (Std.ExtTreeMap.mem_toList_iff_getElem?_eq_some.mpr hget)⟩

lemma rowTable_loggable : rowTable.Loggable := by
  refine ⟨by decide, by decide +kernel, by decide +kernel, by decide +kernel, by decide, by decide,
    forall_mem_singleton.mpr ?_, forall_mem_singleton.mpr ?_⟩
  · exact loggable_of_toList (by decide) (by decide +kernel)
  · exact loggable_of_toList (by decide) (by decide +kernel)

lemma rowBlock_loggable {num : Nat} (h : num < 2 ^ 63) : (rowBlock num).Loggable fun _ => 0 where
  num_lt := h
  datas_lt := Nat.one_lt_two_pow (by decide)
  datas := forall_mem_singleton.mpr rowTable_loggable
  length_lt := by
    have htable : (encodeTable rowTable).length < 200 := by decide +kernel
    unfold blockData rowBlock
    simp
    omega

theorem recovers_sample : Recovers (checkBinLogSize true (crash (fun _ => 0) 400
        ([(false, rowBlock 1), (false, rowBlock 2)].foldl (fun h op => step (fun _ => 0) 400 h true op) {})
        (some (rowBlock 3, 4)))) [rowBlock 1, rowBlock 2] 2 := by
  have hops : ∀ op ∈ [(false, rowBlock 1), (false, rowBlock 2)], op.2.Loggable fun _ => 0 := by
    intro op hop
    simp only [mem_cons, not_mem_nil, or_false] at hop
    rcases hop with rfl | rfl <;> exact rowBlock_loggable (by decide)
  refine (recovers_iff (fun _ => 0) (by decide) true hops (by decide) rfl false (some (rowBlock 3, 4)) ?_).mpr
    (by decide +kernel)
  intro b cut heq
  cases heq
  exact ⟨by decide, rowBlock_loggable (by decide), by decide +kernel⟩

def emptyBlock (num : Nat) : Block :=
  ⟨num, []⟩

/-- Blocks 1 and 2 are written in one file or in two, and the third one is torn: in a new file behind the version or
behind the number, and in the file of the others in its length. The second block is not found. Of an absolute path, not
even an empty file is removed. -/
theorem not_recovers :
    let crc32 : List UInt8 → Nat := fun _ => 0
    let written := fun binarylogSize relative =>
      [emptyBlock 1, emptyBlock 2].foldl (fun h b => step crc32 binarylogSize h relative (false, b)) {}
    let recovered := fun binarylogSize relative cut => getLastBlockNum (checkBinLogSize relative
      (crash crc32 binarylogSize (written binarylogSize relative) (some (emptyBlock 3, cut))))
    recovered 30 true 8 = none ∧ recovered 30 true 20 = some 0 ∧ recovered 100 true 2 = some (-1) ∧
      recovered 30 false 0 = none := by
  decide +kernel

end Recovery

end BinLog

end FiscoBcos
