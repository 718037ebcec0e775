import FiscoBcos.Pbft.CommittedBlocks
import FiscoBcos.TxPool.NonceWindow

/-!
# Transactions that are proposed again

The pool asks for the nonce and the block limit of a transaction when it is submitted and when a block is filled. The
block of a proposal is not asked.
-/

namespace FiscoBcos

open PBFTEngine TransactionNonceCheck List Machine

variable {b : Block}

section

variable (tx : Bytes → Transaction) (maxBlockLimit : Nat)

def txChain (bs : List Block) : TxChain :=
  bs.tail.map fun b => b.transactions.map tx

/-- The nonces pass the check and differ. -/
structure NonceChecked (bs : List Block) (b : Block) : Prop where
  ok : ∀ t ∈ b.transactions, (init (txChain tx bs) maxBlockLimit).ok (tx t) = true
  nodup : (b.transactions.map fun t => (tx t).nonce).Nodup

instance (bs : List Block) (b : Block) : Decidable (NonceChecked tx maxBlockLimit bs b) :=
  decidable_of_iff ((∀ t ∈ b.transactions, (init (txChain tx bs) maxBlockLimit).ok (tx t) = true) ∧
      (b.transactions.map fun t => (tx t).nonce).Nodup)
    ⟨fun h => ⟨h.1, h.2⟩, fun h => ⟨h.1, h.2⟩⟩

end

variable {tx : Bytes → Transaction} {maxBlockLimit : Nat}

lemma ofProposal_nonceChecked : OfProposal (NonceChecked tx maxBlockLimit) := by
  intro bs b b' _ htxs hb
  exact ⟨by rw [htxs]; exact hb.ok, by rw [htxs]; exact hb.nodup⟩

lemma exact_init {chain : TxChain} : (init chain maxBlockLimit).Exact chain ∧
      (init chain maxBlockLimit).endblk = chain.number ∧ (init chain maxBlockLimit).maxBlockLimit = maxBlockLimit := by
  have hcached : Cached chain { maxBlockLimit := maxBlockLimit } := by
    intro i nonceVec hi
    cases Std.ExtTreeMap.getElem?_empty.symm.trans hi
  obtain ⟨hexact, hsame⟩ := exact_updateCache hcached true (fun h => by cases h)
  exact ⟨hexact, hsame.endblk, hsame.maxBlockLimit⟩

variable {bs : List Block} {i : Nat}

lemma number_txChain (hi : i ≤ bs.length) : (txChain tx (bs.take i)).number = i - 1 := by
  unfold txChain TxChain.number
  rw [length_map, length_tail, length_take]
  omega

lemma getBlockByNumber_txChain {j : Nat} (hi : 1 ≤ i) (hij : i < j)
    (hb : bs[i]? = some b) : (txChain tx (bs.take j)).getBlockByNumber i = some (b.transactions.map tx) := by
  obtain ⟨k, rfl⟩ := Nat.exists_eq_succ_of_ne_zero (show i ≠ 0 by omega)
  change (txChain tx (bs.take j))[k]? = _
  unfold txChain
  rw [getElem?_map, getElem?_tail, getElem?_take_of_lt hij, hb]
  rfl

section

variable (h : ∀ i b, 1 ≤ i → bs[i]? = some b → NonceChecked tx maxBlockLimit (bs.take i) b)

include h

lemma not_mem_of_checked {j : Nat} {b' : Block} (hi : 1 ≤ i) (hij : i < j)
    (hb : bs[i]? = some b) (hb' : bs[j]? = some b') {t : Bytes} (ht : t ∈ b.transactions) : t ∉ b'.transactions := by
  intro ht'
  have hilt := (List.getElem?_eq_some_iff.mp hb).1
  obtain ⟨hexact, hend, hmax⟩ := exact_init
  obtain ⟨hexact', hend', hmax'⟩ := exact_init
  have hok := (h i b hi hb).ok t ht
  have hok' := (h j b' (by omega) hb').ok t ht'
  unfold ok at hok hok'
  rw [Bool.and_eq_true] at hok hok'
  refine not_ok_of_block hexact hend (getBlockByNumber_txChain hi hij hb) (List.mem_map_of_mem ht) ?_ ⟨hok'.2, hok'.1⟩
  have hlimit := hok.1
  rw [isBlockLimitOk_iff] at hlimit ⊢
  rw [hexact'.blockNumber, hend', number_txChain (by omega), hmax'] at hlimit
  rw [hmax]
  exact hlimit

lemma nodup_transactions : (bs.tail.flatMap Block.transactions).Nodup := by
  rw [nodup_flatMap]
  have hget {i : Nat} {b : Block} (hb : bs.tail[i]? = some b) : bs[i + 1]? = some b := by
    rwa [getElem?_tail] at hb
  constructor
  · intro b hb
    obtain ⟨i, hi⟩ := mem_iff_getElem?.mp hb
    exact List.Nodup.of_map _ (h (i + 1) b (by omega) (hget hi)).nodup
  · rw [pairwise_iff_getElem]
    intro i j hi hj hij t ht ht'
    have hb := hget (getElem?_eq_getElem hi)
    have hb' := hget (getElem?_eq_getElem hj)
    exact not_mem_of_checked h (by omega) (by omega) hb hb' ht ht'

end

/-- In every run in which the blocks that a node takes in pass the nonce check, on top of a chain for which they have,
no transaction is on the chain twice. For a chain of a genesis block there is nothing to pass. -/
theorem transactions_once (E : Env) (hzero : ∀ h, E.headerHash h ≠ 0) (hhash : Function.Injective E.txHash)
    (tx : Bytes → Transaction) (maxBlockLimit : Nat) (amb : Ambient) (cfg : NodeConfig) (backup : Option WireMsg)
    (hstart : Stacked (NonceChecked tx maxBlockLimit) 1 cfg.blockChain) (es : List (Event × Ambient))
    (hes : Along (step E) (TakesIn E (NonceChecked tx maxBlockLimit)) (start E amb cfg backup) es) :
    (((run (step E) (start E amb cfg backup) es).blockChain.blocks.tail.flatMap Block.transactions).map
      E.txHash).Nodup := by
  have hstacked := stacked_run hzero ofProposal_nonceChecked hstart hes
  exact (nodup_transactions hstacked).map hhash

namespace Symbolic

def wireAt (height : Int) (idx : Nat) (h : Hash) (payload : Option Bytes) : WireMsg :=
  let m := PBFTMsg.signed env (sealers.getD idx 0) height 0 idx h {}
  { height := m.height, view := m.view, idx := m.idx, timestamp := m.timestamp
    blockHash := m.blockHash, sig := m.sig, sig2 := m.sig2, block := payload }

def round (leader : Nat) (parent b : Block) : List (Event × Ambient) :=
  let h := (executeBlock env 0 (parent.info env) b).1.hash env
  let height := b.header.number
  [deliver .PrepareReqPacket false (wireAt height leader (b.hash env) (some (env.encodeBlock b))),
    deliver .SignReqPacket false (wireAt height 0 h none), deliver .SignReqPacket false (wireAt height 3 h none),
    deliver .CommitReqPacket false (wireAt height 0 h none), deliver .CommitReqPacket false (wireAt height 3 h none)]

def firstBlock : Block :=
  (executeBlock env 0 (chain.headInfo env) (block 5)).1

def replayBlock : Block where
  header :=
    { number := 2, parentHash := firstBlock.hash env, timestamp := 6, sealer := 1, sealerList := sealers }
  transactions := [[5]]

def doubledBlock : Block :=
  { block 5 with transactions := [[5], [5]] }

def committedBy (es : List (Event × Ambient)) : List Bytes :=
  (run (step env) (node 13) es).blockChain.blocks.tail.flatMap Block.transactions

def numbered (t : Bytes) : Transaction where
  hash := env.txHash t
  nonce := t.headD 0
  blockLimit := 8

variable {s : PBFTEngine}

lemma takesIn_deliver {kind : PacketType} {flag : Bool} {w : WireMsg} (hblock : (w.block.bind env.decodeBlock).all
      (fun b => decide (NonceChecked numbered 8 s.blockChain.blocks b)) = true) :
    TakesIn env (NonceChecked numbered 8) s (deliver kind flag w) := by
  refine ⟨fun r b htakes hb => ?_, fun _ he => (by cases he)⟩
  exact of_decide_eq_true (of_all_deliver hblock htakes.1 hb)

lemma along_round {leader : Nat} {parent : Block} (hblock : (env.decodeBlock (env.encodeBlock b)).all
      (fun b => decide (NonceChecked numbered 8 s.blockChain.blocks b)) = true) :
    Along (step env) (TakesIn env (NonceChecked numbered 8)) s (round leader parent b) :=
  ⟨takesIn_deliver hblock, takesIn_deliver rfl, takesIn_deliver rfl, takesIn_deliver rfl, takesIn_deliver rfl, trivial⟩

lemma takesIn_reportBlock {number : Int} : TakesIn env (NonceChecked numbered 8) s (.reportBlock number, ambient) :=
  ⟨fun _ _ htakes _ => (by cases htakes.1), fun _ he => (by cases he)⟩

theorem transactions_once_of_two_rounds :
    let es := round 0 genesis (block 5) ++ ((.reportBlock 1, ambient) ::
      round 1 firstBlock { replayBlock with transactions := [[6]] })
    (run (step env) (node 13) es).blockChain.number = 2 ∧ ((committedBy es).map env.txHash).Nodup := by
  refine ⟨by decide +kernel, ?_⟩
  refine transactions_once env headerHash_ne_zero listCode_injective numbered 8 ambient
    { keyPair := 13, blockChain := chain } none (stacked_length _ chain) _ ?_
  refine along_append.mpr ⟨along_round ?_, takesIn_reportBlock, along_round ?_⟩
  · decide +kernel
  · decide +kernel

/-- A leader proposes the transaction of the block before again, or one transaction twice. Every honest sealer votes for
the block, and it is committed. -/
theorem not_transactions_once : ¬((committedBy (round 0 genesis (block 5) ++ ((.reportBlock 1, ambient) ::
        round 1 firstBlock replayBlock))).map env.txHash).Nodup ∧
      ¬((committedBy (round 0 genesis doubledBlock)).map env.txHash).Nodup := by
  decide +kernel

end Symbolic

end FiscoBcos
