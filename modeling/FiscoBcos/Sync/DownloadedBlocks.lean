import FiscoBcos.Sync.BoundTransactions

/-!
# Downloaded blocks

A block is checked as it was downloaded and committed as its execution leaves it. The two headers are compared only if the
downloaded one has a receipts root.
-/

namespace FiscoBcos

open BlockChain List

variable {blocks : List Block} {p : BlockInfo}

/-- A call of `commitBlock`: the engine when the block was taken off the queue, the block then, and the block as it is
passed. -/
structure CommitCall where
  engine : PBFTEngine
  taken : Block
  passed : Block

lemma BlockChain.numberHash_number (E : Env) (c : BlockChain) : c.numberHash E c.number = c.head.hash E := by
  unfold numberHash
  rw [c.getBlockByNumber_number]

lemma executeBlock_fields {E : Env} {n : Int} {b : Block} : (executeBlock E n p b).1.header.number = b.header.number ∧
      (executeBlock E n p b).1.header.parentHash = b.header.parentHash := by
  obtain ⟨header, hresult, hroots⟩ := executeBlock_block
  rw [hresult]
  have hnumber : header.withoutRoots.number = b.header.withoutRoots.number := by rw [hroots]
  have hparent : header.withoutRoots.parentHash = b.header.withoutRoots.parentHash := by rw [hroots]
  exact ⟨hnumber, hparent⟩

lemma executeBlock_roots {E : Env} {n : Int} {b : Block} (hok : (executeBlock E n p b).2 = true) :
    ∃ r, E.runTransactions p b.header.withoutRoots b.transactions = some r ∧
      (executeBlock E n p b).1.hash E = E.headerHash (b.header.withRoots r) ∧
      (b.header.receiptsRoot ≠ 0 → E.headerHash (b.header.withRoots r) = b.hash E) := by
  unfold executeBlock at hok ⊢
  by_cases hlt : b.header.number < n
  · rw [if_pos hlt] at hok
    cases hok
  rw [if_neg hlt] at hok ⊢
  cases hrun : E.runTransactions p b.header.withoutRoots b.transactions with
  | none =>
    rw [hrun] at hok
    cases hok
  | some r =>
    rw [hrun] at hok
    refine ⟨r, rfl, ?_, fun hroot => ?_⟩
    · dsimp only
      split <;> rfl
    · by_contra hhash
      dsimp only at hok
      rw [if_pos ⟨hroot, Ne.symm hhash⟩] at hok
      cases hok

/-- If the root of executed receipts is never empty, execution leaves the hash of a block alone exactly when the block
came with a receipts root. -/
lemma executeBlock_hash_iff {E : Env} {n : Int} {b : Block} (hok : (executeBlock E n p b).2 = true)
    (hhash : Function.Injective E.headerHash)
    (hroots : ∀ p h txs r, E.runTransactions p h txs = some r → r.receiptsRoot ≠ 0) :
    (executeBlock E n p b).1.hash E = b.hash E ↔ b.header.receiptsRoot ≠ 0 := by
  obtain ⟨r, hrun, hexec, hsame⟩ := executeBlock_roots hok
  rw [hexec]
  refine ⟨fun heq => ?_, hsame⟩
  have hroot := congrArg BlockHeader.receiptsRoot (hhash heq)
  rw [← hroot]
  exact hroots _ _ _ r hrun

namespace PBFTEngine

variable (E : Env) (amb : Ambient) (s : PBFTEngine) (b : Block)

def commitCall : Option CommitCall :=
  let q := s.isNextBlock E amb b
  if q.1 then
    let r := executeBlock E amb.executingNumber (q.2.blockChain.headInfo E) b
    if r.2 then some ⟨s, b, r.1⟩ else none
  else none

def commitCalls (s : PBFTEngine) : List Block → List CommitCall
  | [] => []
  | b :: blocks =>
    if b.header.number ≤ s.blockChain.number + 1 then
      (s.commitCall E amb b).toList ++ commitCalls (s.importBlock E amb b) blocks
    else []

lemma checkBlock_blockChain : (s.checkBlock E amb b).2.blockChain = s.blockChain := by
  unfold checkBlock
  dsimp only
  split_ifs
  all_goals first | rfl | exact resetConfig_blockChain amb s

lemma isNextBlock_iff : (s.isNextBlock E amb b).1 = true ↔
      b.header.number = s.blockChain.number + 1 ∧ b.header.parentHash = s.blockChain.head.hash E ∧
        (s.checkBlock E amb b).1 = true := by
  unfold isNextBlock
  rw [numberHash_number]
  by_cases hnumber : s.blockChain.number + 1 = b.header.number
  · rw [if_neg (not_not.mpr hnumber)]
    by_cases hparent : s.blockChain.head.hash E = b.header.parentHash
    · rw [if_neg (not_not.mpr hparent)]
      simp [hnumber, hparent]
    · rw [if_pos hparent]
      simp [Ne.symm hparent]
  · rw [if_pos hnumber]
    simp [Ne.symm hnumber]

lemma isNextBlock_blockChain : (s.isNextBlock E amb b).2.blockChain = s.blockChain := by
  unfold isNextBlock
  split_ifs
  · rfl
  · rfl
  · exact checkBlock_blockChain E amb s b

structure Extends (c : CommitCall) : Prop where
  number : c.passed.header.number = c.engine.blockChain.number + 1
  parentHash : c.passed.header.parentHash = c.engine.blockChain.head.hash E
  consensus : (c.engine.checkBlock E amb c.taken).1 = true
  executed : ∃ number parent, executeBlock E number parent c.taken = (c.passed, true)

variable {E amb s b} {c : CommitCall}

lemma extends_of_commitCall (h : s.commitCall E amb b = some c) : c.engine = s ∧ c.taken = b ∧ Extends E amb c := by
  unfold commitCall at h
  dsimp only at h
  split_ifs at h with hnext hexec
  cases h
  obtain ⟨hnumber, hparent, hcheck⟩ := (isNextBlock_iff E amb s b).mp hnext
  obtain ⟨hnumber', hparent'⟩ := executeBlock_fields
  exact ⟨rfl, rfl, hnumber'.trans hnumber, hparent'.trans hparent, hcheck, _, _, Prod.ext rfl hexec⟩

lemma importBlock_blocks : (s.importBlock E amb b).blockChain.blocks =
      s.blockChain.blocks ++ ((s.commitCall E amb b).toList.map CommitCall.passed) := by
  have hchain := isNextBlock_blockChain E amb s b
  have hcall : ∀ c, s.commitCall E amb b = some c → Extends E amb c := fun c h => (extends_of_commitCall h).2.2
  unfold importBlock
  unfold commitCall at hcall ⊢
  dsimp only at hcall ⊢
  split_ifs at hcall ⊢ with hnext hexec
  · have hext := hcall _ rfl
    have hnumber := hext.number
    have hparent := hext.parentHash
    rw [← hchain] at hnumber hparent
    rw [← numberHash_number] at hparent
    unfold syncBlock commitBlock
    rw [dif_pos hnumber, if_pos hparent]
    change (s.isNextBlock E amb b).2.blockChain.blocks ++ [_] = _
    rw [hchain]
    rfl
  · rw [hchain]
    simp
  · rw [hchain]
    simp

lemma importBlocks_blocks : (s.importBlocks E amb blocks).1.blockChain.blocks =
      s.blockChain.blocks ++ (s.commitCalls E amb blocks).map CommitCall.passed := by
  induction blocks generalizing s with
  | nil => simp [importBlocks, commitCalls]
  | cons b blocks ih =>
    unfold importBlocks commitCalls
    split
    · rw [ih, importBlock_blocks, map_append, append_assoc]
    · simp

lemma extends_of_mem_commitCalls (h : c ∈ s.commitCalls E amb blocks) : c.taken ∈ blocks ∧ Extends E amb c := by
  induction blocks generalizing s with
  | nil => cases h
  | cons b blocks ih =>
    unfold commitCalls at h
    split at h
    · cases mem_append.mp h with
      | inl hnow =>
        obtain ⟨-, htaken, hext⟩ := extends_of_commitCall (Option.mem_toList.mp hnow)
        rw [htaken]
        exact ⟨mem_cons_self, hext⟩
      | inr hlater => exact ⟨mem_cons_of_mem _ (ih hlater).1, (ih hlater).2⟩
    · cases h

end PBFTEngine

namespace SyncMaster

variable (E : Env) (amb : Ambient) (n : SyncMaster)

def commitCalls : List CommitCall :=
  if n.downloading ∧ n.engine.blockChain.number < n.knownHighestNumber then
    n.engine.commitCalls E amb n.bq.blocks
  else []

theorem maintainDownloadingQueue_blocks : (n.maintainDownloadingQueue E amb).engine.blockChain.blocks =
      n.engine.blockChain.blocks ++ (n.commitCalls E amb).map CommitCall.passed := by
  unfold maintainDownloadingQueue commitCalls
  by_cases hdown : n.downloading
  · rw [if_pos hdown]
    by_cases hdone : n.knownHighestNumber ≤ n.engine.blockChain.number
    · rw [if_pos hdone, if_neg fun h => absurd h.2 (not_lt.mpr hdone)]
      simp
    · rw [if_neg hdone, if_pos ⟨hdown, not_le.mp hdone⟩]
      exact PBFTEngine.importBlocks_blocks
  · rw [if_neg hdown, if_neg fun h => hdown h.1]
    simp

/-- Every block passed to `commitBlock` has the next number and the hash of the newest block as its parent, and the
consensus module has accepted it. It has the hash that was checked exactly when it was downloaded with a receipts root. -/
theorem downloaded_extends_iff (hhash : Function.Injective E.headerHash)
    (hroots : ∀ p h txs r, E.runTransactions p h txs = some r → r.receiptsRoot ≠ 0) (c : CommitCall)
    (hc : c ∈ n.commitCalls E amb) :
    c.taken ∈ n.bq.blocks ∧ c.passed.header.number = c.engine.blockChain.number + 1 ∧
      c.passed.header.parentHash = c.engine.blockChain.head.hash E ∧
      (c.engine.checkBlock E amb c.taken).1 = true ∧
      (c.passed.hash E = c.taken.hash E ↔ c.taken.header.receiptsRoot ≠ 0) := by
  unfold commitCalls at hc
  split at hc
  · obtain ⟨hmem, hext⟩ := PBFTEngine.extends_of_mem_commitCalls hc
    obtain ⟨number, parent, hexec⟩ := hext.executed
    have hiff := executeBlock_hash_iff (congrArg Prod.snd hexec) hhash hroots
    rw [hexec] at hiff
    exact ⟨hmem, hext.number, hext.parentHash, hext.consensus, hiff⟩
  · cases hc

end SyncMaster

namespace Symbolic

def downloader (b : Block) : SyncMaster :=
  Machine.run (SyncMaster.step rootedEnv)
    (NodeRun.start rootedEnv { amb := ambient, cfg := { keyPair := 14, blockChain := chain }, es := [] })
    [(.maintainPeersStatus true 1, ambient), (.onPeerBlocks [rootedEnv.encodeBlock b], ambient),
      (.maintainDownloadingQueueBuffer, ambient)]

def signedByLeader (b : Block) : Block :=
  { b with sigList := replicate 3 (0, env.sign 11 (b.hash rootedEnv) 0) }

theorem downloaded_extends_executedBlock :
    let n := downloader (signedByLeader (executedBlock 7))
    ∃ c ∈ n.commitCalls rootedEnv ambient, c.taken.header.receiptsRoot ≠ 0 ∧
      c.passed.header.number = c.engine.blockChain.number + 1 ∧
      c.passed.header.parentHash = c.engine.blockChain.head.hash rootedEnv ∧
      (c.engine.checkBlock rootedEnv ambient c.taken).1 = true ∧
      c.passed.hash rootedEnv = c.taken.hash rootedEnv := by
  have hpos : 0 < ((downloader (signedByLeader (executedBlock 7))).commitCalls rootedEnv ambient).length := by
    decide +kernel
  have hroots : ∀ c ∈ (downloader (signedByLeader (executedBlock 7))).commitCalls rootedEnv ambient,
      c.taken.header.receiptsRoot ≠ 0 := by
    decide +kernel
  obtain ⟨c, hc⟩ := exists_mem_of_length_pos hpos
  obtain ⟨-, hnumber, hparent, hcheck, hhash⟩ := SyncMaster.downloaded_extends_iff rootedEnv ambient _
    headerHash_injective (by rintro p h txs _ ⟨⟩; exact Nat.succ_ne_zero _) c hc
  exact ⟨c, hc, hroots c hc, hnumber, hparent, hcheck, hhash.mpr (hroots c hc)⟩

/-- The leader signs the hash of the block it proposes, which has no roots yet. A peer sends that block with this one
signature three times, and the node commits it under another hash. -/
theorem not_downloaded_hash :
    let n := downloader (signedByLeader (rootedBlock 7))
    let proposed := signedByLeader (rootedBlock 7)
    (n.commitCalls rootedEnv ambient).map CommitCall.taken = [proposed] ∧
      (n.commitCalls rootedEnv ambient).map CommitCall.passed = [{ proposed with header := (executedBlock 7).header }] ∧
      (executedBlock 7).hash rootedEnv ≠ proposed.hash rootedEnv ∧
      (n.maintainDownloadingQueue rootedEnv ambient).engine.blockChain.head.hash rootedEnv =
        (executedBlock 7).hash rootedEnv := by
  decide +kernel

end Symbolic

end FiscoBcos
