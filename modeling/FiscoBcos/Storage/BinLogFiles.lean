import FiscoBcos.Lib.OrderedMap
import FiscoBcos.Storage.BinLogCodec

/-!
# Reading the files of the binary log

A file with whole blocks and what is left of another one gives its last number and the blocks of a range, and so do
the files of a directory, the newest one first.
-/

namespace FiscoBcos

open List Option

namespace BinLog

open FixedWidth

variable {crc32 : List UInt8 → Nat} {file tail : List UInt8} {bs : List Block} {b : Block}

section

variable (crc32 : List UInt8 → Nat)

def encodeBlocks (bs : List Block) : List UInt8 :=
  bs.flatMap (encodeBlock crc32)

def fileBytes (bs : List Block) (tail : List UInt8) : List UInt8 :=
  encode 4 BINLOG_VERSION ++ (encodeBlocks crc32 bs ++ tail)

def Torn (tail : List UInt8) : Prop :=
  tail = [] ∨ ∃ (b : Block) (cut : Nat), b.Loggable crc32 ∧ cut < (encodeBlock crc32 b).length ∧
    tail = (encodeBlock crc32 b).take cut

end

def collect (startNum endNum : Int) (bs : List Block) (blocksData : BlockDataMap) : BlockDataMap :=
  bs.foldl (fun blocksData b =>
    if startNum < b.num ∧ b.num ≤ endNum then blocksData.insert b.num (b.datas.map LogTable.logged)
    else blocksData) blocksData

section

lemma length_encodeBlock (crc32 : List UInt8 → Nat) (b : Block) :
    (encodeBlock crc32 b).length = 4 + (blockData crc32 b).length := by
  unfold encodeBlock encodeString
  rw [length_append, length_encode]

lemma encodeBlocks_cons (crc32 : List UInt8 → Nat) (b : Block) (bs : List Block) :
    encodeBlocks crc32 (b :: bs) = encodeBlock crc32 b ++ encodeBlocks crc32 bs :=
  flatMap_cons

lemma read_length_take (hb : b.Loggable crc32) {cut : Nat} (hcut : 4 ≤ cut) : read 4 ((encodeBlock crc32 b).take cut) =
      some ((blockData crc32 b).length, (blockData crc32 b).take (cut - 4)) := by
  have hread := read_length hb []
  rw [append_nil, append_nil] at hread
  rw [read_take 4 hcut, hread, map_some]

lemma read_torn (h : Torn crc32 tail) (hlen : 4 ≤ tail.length) :
    ∃ len rest, read 4 tail = some (len, rest) ∧ tail.length < 4 + len ∧ rest.length < len := by
  cases h with
  | inl hnil =>
    rw [hnil] at hlen
    exact absurd hlen (by decide)
  | inr htorn =>
    obtain ⟨b, cut, hb, hcut, rfl⟩ := htorn
    rw [length_encodeBlock] at hcut
    rw [length_take] at hlen
    refine ⟨(blockData crc32 b).length, (blockData crc32 b).take (cut - 4), read_length_take hb (by omega), ?_, ?_⟩
    · rw [length_take]
      omega
    · rw [length_take]
      omega

variable {o k : Nat} {rest : List UInt8}

lemma drop_block (hdrop : file.drop o = encodeBlock crc32 b ++ rest) :
    file.drop (o + (4 + (blockData crc32 b).length)) = rest := by
  rw [← length_encodeBlock, ← drop_drop, hdrop, drop_left]

lemma length_of_drop (hdrop : file.drop o = encodeBlock crc32 b ++ rest) :
    file.length = o + (4 + (blockData crc32 b).length) + rest.length := by
  have hlen := congrArg length hdrop
  rw [length_drop, length_append, length_encodeBlock] at hlen
  omega

lemma lastBlockNum_cons (hb : b.Loggable crc32) (hlt : file.length < 2 ^ 32) {num : Nat}
    (hdrop : file.drop o = encodeBlock crc32 b ++ rest) : lastBlockNum file file.length (k + 1) o num =
      lastBlockNum file file.length k (o + (4 + (blockData crc32 b).length)) b.num := by
  obtain ⟨rest', hnum⟩ := read_num hb
  have hlen := length_of_drop hdrop
  unfold lastBlockNum
  rw [if_neg (by omega), hdrop, read_length hb]
  dsimp only
  rw [if_neg (by omega), hnum]
  rw [Nat.mod_eq_of_lt (by omega)]
  cases k <;> rfl

lemma lastBlockNum_append (hbs : ∀ b ∈ bs, b.Loggable crc32) (hlt : file.length < 2 ^ 32)
    (hdrop : file.drop o = encodeBlocks crc32 bs ++ tail) (num : Nat) :
    lastBlockNum file file.length (k + bs.length) o num =
      lastBlockNum file file.length k (o + (encodeBlocks crc32 bs).length) ((bs.getLast?.map Block.num).getD num) := by
  induction bs generalizing o num with
  | nil => rfl
  | cons b bs ih =>
    rw [encodeBlocks_cons, append_assoc] at hdrop
    rw [length_cons, ← add_assoc, lastBlockNum_cons (hbs b mem_cons_self) hlt hdrop,
      ih (fun b' hb' => hbs b' (mem_cons_of_mem _ hb')) (drop_block hdrop), encodeBlocks_cons, length_append,
      length_encodeBlock, add_assoc o]
    cases bs with
    | nil => rfl
    | cons => rw [getLast?_cons_cons, getLast?_cons, map_some, getD_some, getD_some]

lemma collect_eq_self {startNum endNum : Int} {blocksData : BlockDataMap}
    (h : ∀ b ∈ bs, ¬(startNum < b.num ∧ b.num ≤ endNum)) : collect startNum endNum bs blocksData = blocksData := by
  induction bs with
  | nil => rfl
  | cons b bs ih =>
    unfold collect
    rw [foldl_cons, if_neg (h b mem_cons_self)]
    exact ih fun b' hb' => h b' (mem_cons_of_mem _ hb')

lemma getBlockData_eq (hbs : ∀ b ∈ bs, b.Loggable crc32) (hasc : bs.Pairwise fun a b => a.num < b.num)
    (htorn : Torn crc32 tail) (hlt : file.length < 2 ^ 32) (hk : bs.length < k)
    (hdrop : file.drop o = encodeBlocks crc32 bs ++ tail) (ho : o ≤ file.length) (startNum endNum : Int)
    (blocksData : BlockDataMap) :
    getBlockData file file.length startNum endNum k o blocksData = some (collect startNum endNum bs blocksData) := by
  induction bs generalizing k o blocksData with
  | nil =>
    obtain ⟨k, rfl⟩ := Nat.exists_eq_succ_of_ne_zero (Nat.ne_zero_of_lt hk)
    change file.drop o = tail at hdrop
    change _ = some blocksData
    unfold getBlockData
    by_cases hend : file.length ≤ o
    · rw [if_pos hend]
    rw [if_neg hend, hdrop]
    by_cases hfour : 4 ≤ tail.length
    · obtain ⟨len, rest, hread, hmore, hrest⟩ := read_torn htorn hfour
      have hbytes : readBytes len rest = none := if_pos hrest
      rw [hread]
      dsimp only
      rw [hbytes]
      rw [ite_self]
    · rw [read_eq_none 4 (by omega)]
  | cons b bs ih =>
    obtain ⟨k, rfl⟩ := Nat.exists_eq_succ_of_ne_zero (Nat.ne_zero_of_lt hk)
    have hb := hbs b mem_cons_self
    have hgt := (pairwise_cons.mp hasc).1
    rw [encodeBlocks_cons, append_assoc] at hdrop
    have hlen := length_of_drop hdrop
    have hnext := drop_block hdrop
    rw [← add_assoc] at hnext
    have hrest (blocksData : BlockDataMap) := ih (fun b' hb' => hbs b' (mem_cons_of_mem _ hb'))
      (pairwise_cons.mp hasc).2 (Nat.lt_of_succ_lt_succ hk) hnext (by omega) blocksData
    unfold getBlockData collect
    rw [if_neg (by omega), hdrop, read_length hb]
    dsimp only
    rw [Nat.mod_eq_of_lt (show o + 4 < 2 ^ 32 by omega), Nat.mod_eq_of_lt (by omega), if_neg (by omega),
      readBytes_append]
    dsimp only
    rw [decodeBlock_blockData hb, bind_some, foldl_cons]
    by_cases hless : (b.num : Int) ≤ startNum
    · rw [if_pos hless, if_neg (by omega)]
      exact hrest blocksData
    rw [if_neg hless]
    by_cases hgreater : endNum < b.num
    · -- the later blocks are not in the range either
      rw [if_pos hgreater, if_neg (by omega)]
      refine congrArg some (collect_eq_self fun b' hb' => ?_).symm
      have hnum := hgt b' hb'
      omega
    · rw [if_neg hgreater, if_pos (by omega)]
      exact hrest _

end

section Directory

def logFile (crc32 : List UInt8 → Nat) (c : List Block × List UInt8) : BinLogFile :=
  ⟨(c.1.head?.map Block.num).getD 0, fileBytes crc32 c.1 c.2⟩

structure LogFiles (crc32 : List UInt8 → Nat) (cs : List (List Block × List UInt8)) : Prop where
  nonempty : ∀ c ∈ cs, c.1 ≠ []
  loggable : ∀ c ∈ cs, ∀ b ∈ c.1, b.Loggable crc32
  torn : ∀ c ∈ cs, Torn crc32 c.2
  small : ∀ c ∈ cs, (fileBytes crc32 c.1 c.2).length < 2 ^ 32
  ascending : ∀ c ∈ cs, c.1.Pairwise fun a b => a.num < b.num
  newer : cs.Pairwise fun newer older => ∀ x ∈ older.1, ∀ y ∈ newer.1, x.num < y.num

variable {c : List Block × List UInt8} {cs : List (List Block × List UInt8)}

lemma LogFiles.older (h : LogFiles crc32 (c :: cs)) : LogFiles crc32 cs where
  nonempty := fun c hc => h.nonempty c (mem_cons_of_mem _ hc)
  loggable := fun c hc => h.loggable c (mem_cons_of_mem _ hc)
  torn := fun c hc => h.torn c (mem_cons_of_mem _ hc)
  small := fun c hc => h.small c (mem_cons_of_mem _ hc)
  ascending := fun c hc => h.ascending c (mem_cons_of_mem _ hc)
  newer := (pairwise_cons.mp h.newer).2

lemma num_logFile (hc : c.1 = b :: bs) : (logFile crc32 c).num = b.num := by
  unfold logFile
  rw [hc]
  rfl

lemma sorted_logFiles (h : LogFiles crc32 cs) : sorted (cs.map (logFile crc32)) = cs.map (logFile crc32) := by
  apply List.Pairwise.insertionSort_eq
  rw [pairwise_map]
  apply h.newer.imp_of_mem
  intro newer older hnewer holder hlt
  obtain ⟨x, xs, hx⟩ := exists_cons_of_ne_nil (h.nonempty older holder)
  obtain ⟨y, ys, hy⟩ := exists_cons_of_ne_nil (h.nonempty newer hnewer)
  rw [num_logFile hx, num_logFile hy]
  exact le_of_lt (hlt x (by rw [hx]; exact mem_cons_self) y (by rw [hy]; exact mem_cons_self))

lemma length_fileBytes (bs : List Block) (tail : List UInt8) :
    (fileBytes crc32 bs tail).length = 4 + (encodeBlocks crc32 bs).length + tail.length := by
  unfold fileBytes
  rw [length_append, length_encode, length_append]
  omega

lemma four_le_fileBytes (bs : List Block) (tail : List UInt8) : 4 ≤ (fileBytes crc32 bs tail).length := by
  rw [length_fileBytes]
  omega

lemma getBinLogContext_fileBytes (hlt : (fileBytes crc32 bs tail).length < 2 ^ 32) :
    getBinLogContext (fileBytes crc32 bs tail) = some ((fileBytes crc32 bs tail).length, BINLOG_VERSION) := by
  have hread : read 4 (fileBytes crc32 bs tail) = some (BINLOG_VERSION, encodeBlocks crc32 bs ++ tail) :=
    read_encode 4 (by decide) _
  have hlen : 4 ≤ (fileBytes crc32 bs tail).length := four_le_fileBytes bs tail
  unfold getBinLogContext
  rw [Nat.mod_eq_of_lt hlt, if_neg (by omega), hread]
  rfl

lemma drop_fileBytes (crc32 : List UInt8 → Nat) (bs : List Block) (tail : List UInt8) :
    (fileBytes crc32 bs tail).drop 4 = encodeBlocks crc32 bs ++ tail := by
  have hdrop : (fileBytes crc32 bs tail).drop (encode 4 BINLOG_VERSION).length = encodeBlocks crc32 bs ++ tail :=
    drop_left
  rwa [length_encode] at hdrop

lemma getFirstBlockNumInBinLog_eq (h : LogFiles crc32 (c :: cs)) :
    getFirstBlockNumInBinLog (logFile crc32 c).bytes = (logFile crc32 c).num := by
  obtain ⟨b, bs, hc⟩ := exists_cons_of_ne_nil (h.nonempty c mem_cons_self)
  have hb := h.loggable c mem_cons_self b (by rw [hc]; exact mem_cons_self)
  have hsmall := h.small c mem_cons_self
  obtain ⟨rest, hnum⟩ := read_num hb
  rw [num_logFile hc]
  change ((getBinLogContext (fileBytes crc32 c.1 c.2)).bind fun _ =>
    (read 4 ((fileBytes crc32 c.1 c.2).drop 4)).bind fun blockLen => read 8 blockLen.2).elim (-1)
    (fun blockNum => toInt64 blockNum.1) = (b.num : Int)
  rw [getBinLogContext_fileBytes hsmall, bind_some, drop_fileBytes, hc, encodeBlocks_cons, append_assoc,
    read_length hb, bind_some, hnum]
  exact if_pos hb.num_lt

lemma length_lt_fileBytes (bs : List Block) (tail : List UInt8) : bs.length < (fileBytes crc32 bs tail).length := by
  unfold fileBytes encodeBlocks
  rw [length_append, length_encode, length_append]
  have hle : bs.length ≤ (bs.flatMap (encodeBlock crc32)).length := by
    induction bs with
    | nil => exact le_rfl
    | cons =>
      rw [flatMap_cons, length_append, length_encodeBlock, length_cons]
      omega
  omega

lemma getLastBlockNum_cons (hbs : ∀ b ∈ bs, b.Loggable crc32) (hsmall : (fileBytes crc32 bs tail).length < 2 ^ 32)
    {num : Nat} {files : List BinLogFile} (hfirst : getFirstBlockNumInBinLog (fileBytes crc32 bs tail) = num)
    (hsorted : sorted (⟨num, fileBytes crc32 bs tail⟩ :: files) = ⟨num, fileBytes crc32 bs tail⟩ :: files) :
    ∃ k, getLastBlockNum (⟨num, fileBytes crc32 bs tail⟩ :: files) =
      some (lastBlockNum (fileBytes crc32 bs tail) (fileBytes crc32 bs tail).length (k + 1)
        (4 + (encodeBlocks crc32 bs).length) ((bs.getLast?.map Block.num).getD 0)) := by
  have hlt : bs.length < (fileBytes crc32 bs tail).length := length_lt_fileBytes bs tail
  obtain ⟨k, hk⟩ := Nat.exists_eq_add_of_lt hlt
  have hfuel : (fileBytes crc32 bs tail).length = k + 1 + bs.length := by omega
  refine ⟨k, ?_⟩
  unfold getLastBlockNum
  rw [hsorted]
  dsimp only
  rw [if_neg (not_not.mpr hfirst), getBinLogContext_fileBytes hsmall,
    ← lastBlockNum_append hbs hsmall (drop_fileBytes crc32 bs tail) 0, ← hfuel]
  rfl

lemma lastBlockNum_end (htorn : Torn crc32 tail) (htail : tail = [] ∨ 4 ≤ tail.length) (k num : Nat) :
    lastBlockNum (fileBytes crc32 bs tail) (fileBytes crc32 bs tail).length (k + 1)
      (4 + (encodeBlocks crc32 bs).length) num = toInt64 num := by
  have hlen : (fileBytes crc32 bs tail).length = _ := length_fileBytes bs tail
  unfold lastBlockNum
  cases htail with
  | inl hnil =>
    rw [if_pos (by rw [hlen, hnil]; exact le_rfl)]
  | inr hfour =>
    obtain ⟨len, rest, hread, hmore, -⟩ := read_torn htorn hfour
    rw [if_neg (by omega), ← drop_drop, drop_fileBytes, drop_left, hread]
    dsimp only
    rw [if_pos (by omega)]

lemma getLastBlockNum_eq (h : LogFiles crc32 (c :: cs)) (htail : c.2 = [] ∨ 4 ≤ c.2.length) {last : Block}
    (hlast : c.1.getLast? = some last) : getLastBlockNum ((c :: cs).map (logFile crc32)) = some (last.num : Int) := by
  have hc := h.loggable c mem_cons_self
  obtain ⟨k, hnum⟩ := getLastBlockNum_cons hc (h.small c mem_cons_self) (getFirstBlockNumInBinLog_eq h) (sorted_logFiles h)
  rw [lastBlockNum_end (h.torn c mem_cons_self) htail, hlast] at hnum
  exact hnum.trans (congrArg some (if_pos (hc last (mem_of_getLast? hlast)).num_lt))

lemma getLastBlockNum_tail (h : LogFiles crc32 (c :: cs)) (hpos : 0 < c.2.length) (hlen : c.2.length < 4) :
    getLastBlockNum ((c :: cs).map (logFile crc32)) = some (-1) := by
  obtain ⟨k, hnum⟩ := getLastBlockNum_cons (h.loggable c mem_cons_self) (h.small c mem_cons_self)
    (getFirstBlockNumInBinLog_eq h) (sorted_logFiles h)
  have hlength : (fileBytes crc32 c.1 c.2).length = _ := length_fileBytes c.1 c.2
  refine hnum.trans (congrArg some ?_)
  unfold lastBlockNum
  rw [if_neg (by omega), ← drop_drop, drop_fileBytes, drop_left, read_eq_none 4 hlen]

lemma readFiles_eq (h : LogFiles crc32 cs) (startNum endNum : Int) (blocksData : BlockDataMap) :
    readFiles startNum endNum (cs.map (logFile crc32)) blocksData =
      some (collect startNum endNum (cs.flatMap Prod.fst) blocksData) := by
  induction cs generalizing blocksData with
  | nil => rfl
  | cons c cs ih =>
    obtain ⟨b, bs, hc⟩ := exists_cons_of_ne_nil (h.nonempty c mem_cons_self)
    have hfirst := getFirstBlockNumInBinLog_eq h
    have hnum : (logFile crc32 c).num = b.num := num_logFile hc
    have hasc := h.ascending c mem_cons_self
    have hsmall := h.small c mem_cons_self
    have hsplit (blocksData : BlockDataMap) : collect startNum endNum ((c :: cs).flatMap Prod.fst) blocksData =
        collect startNum endNum (cs.flatMap Prod.fst) (collect startNum endNum c.1 blocksData) := by
      exact foldl_append
    have hfrom : ∀ b' ∈ c.1, b.num ≤ b'.num := by
      rw [hc] at hasc ⊢
      intro b' hb'
      cases mem_cons.mp hb' with
      | inl heq => rw [heq]
      | inr hmem => exact le_of_lt ((pairwise_cons.mp hasc).1 b' hmem)
    have hread : readBinLog (logFile crc32 c).bytes startNum endNum blocksData =
        some (collect startNum endNum c.1 blocksData) := by
      change (getBinLogContext (fileBytes crc32 c.1 c.2)).elim _ _ = _
      rw [getBinLogContext_fileBytes hsmall]
      exact getBlockData_eq (h.loggable c mem_cons_self) hasc (h.torn c mem_cons_self) hsmall
        (length_lt_fileBytes _ _) (drop_fileBytes crc32 c.1 c.2) (four_le_fileBytes _ _) _ _ _
    rw [map_cons, hsplit]
    unfold readFiles
    rw [hfirst, if_neg (not_not.mpr rfl), hnum]
    by_cases hend : endNum < b.num
    · have hnone : collect startNum endNum c.1 blocksData = blocksData := collect_eq_self fun b' hb' => by
        have hle := hfrom b' hb'
        omega
      rw [if_pos hend, hnone]
      exact ih h.older _
    rw [if_neg hend, hread, bind_some]
    by_cases hstart : (b.num : Int) ≤ startNum
    · -- the blocks of the older files come before the range
      rw [if_pos hstart]
      refine congrArg some (collect_eq_self fun b' hb' => ?_).symm
      obtain ⟨older, holder, hmem⟩ := mem_flatMap.mp hb'
      have hlt := (pairwise_cons.mp h.newer).1 older holder b' hmem b (by rw [hc]; exact mem_cons_self)
      omega
    · rw [if_neg hstart]
      exact ih h.older _

lemma getElem?_collect {startNum endNum i : Int} {datas : List LogTable} (hnodup : (bs.map Block.num).Nodup) :
    (collect startNum endNum bs ∅)[i]? = some datas ↔
      ∃ b ∈ bs, (b.num : Int) = i ∧ startNum < i ∧ i ≤ endNum ∧ datas = b.datas.map LogTable.logged := by
  induction bs using reverseRecOn with
  | nil => simp [collect]
  | append_singleton bs b ih =>
    rw [map_append, map_singleton] at hnodup
    have hne : ∀ b' ∈ bs, (b'.num : Int) ≠ b.num := fun b' hb' heq =>
      disjoint_of_nodup_append hnodup (mem_map_of_mem hb') (Int.ofNat.inj heq ▸ mem_singleton_self _)
    have hbefore := ih (nodup_append.mp hnodup).1
    have hsplit : collect startNum endNum (bs ++ [b]) ∅ = if startNum < b.num ∧ b.num ≤ endNum then
          (collect startNum endNum bs ∅).insert (b.num : Int) (b.datas.map LogTable.logged)
        else collect startNum endNum bs ∅ :=
      foldl_append
    simp
    rw [hsplit, ← hbefore]
    by_cases hin : startNum < b.num ∧ b.num ≤ endNum
    · rw [if_pos hin]
      by_cases heq : (b.num : Int) = i
      · subst heq
        have hnone : ¬(collect startNum endNum bs ∅)[(b.num : Int)]? = some datas := fun hsome => by
          obtain ⟨b', hb', hi, -⟩ := hbefore.mp hsome
          exact hne b' hb' hi
        simp [hnone, hin, eq_comm]
      · rw [OrderedMap.getElem?_insert_of_ne heq]
        simp [heq]
    · rw [if_neg hin]
      refine ⟨.inl, fun h => h.elim id ?_⟩
      rintro ⟨rfl, hstart, hend, -⟩
      exact absurd ⟨hstart, hend⟩ hin

end Directory

end BinLog

end FiscoBcos
