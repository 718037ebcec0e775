import FiscoBcos.Chain.TransactionsRoot
import FiscoBcos.Pbft.CommittedBlocks
import FiscoBcos.Sync.SyncMaster

/-!
# Headers and the transactions that come with them

Neither a proposal nor a downloaded block is asked whether its header carries the root of its transactions.
-/

namespace FiscoBcos

open PBFTEngine List DownloadingBlockQueue Block

variable (tx : Nat) {b : Block} {rlps : List Bytes} {bytes : Bytes}

variable {E : Env} {asBytes : Hash → Bytes}

lemma ofProposal_bound (E : Env) (asBytes : Hash → Bytes) : OfProposal fun _ b => b.Bound E asBytes := by
  intro _ b b' hheader htxs hb
  have hroot : b'.header.withoutRoots.transactionsRoot = b.header.withoutRoots.transactionsRoot := by rw [hheader]
  change b'.header.transactionsRoot = b.header.transactionsRoot at hroot
  unfold Bound at hb ⊢
  rw [hroot, htxs, hb]

lemma Block.Bound.executeBlock {n : Int} {p : BlockInfo} (hb : b.Bound E asBytes) :
    (FiscoBcos.executeBlock E n p b).1.Bound E asBytes := by
  obtain ⟨header, hresult, hroots⟩ := executeBlock_block
  rw [hresult]
  exact ofProposal_bound E asBytes [] b _ hroots rfl hb

namespace DownloadingBlockQueue

structure All (E : Env) (P : Block → Prop) (q : DownloadingBlockQueue) : Prop where
  blocks : ∀ b ∈ q.blocks, P b
  buffer : ∀ rlps ∈ q.buffer, ∀ bytes ∈ rlps, ∀ b, E.decodeBlock bytes = some b → P b

variable {P : Block → Prop} {q : DownloadingBlockQueue} {number : Int} {blocks : List Block}

lemma all_empty (E : Env) (P : Block → Prop) : All E P {} :=
  ⟨forall_mem_nil _, forall_mem_nil _⟩

lemma All.push (h : All E P q) (hnew : ∀ bytes ∈ rlps, ∀ b, E.decodeBlock bytes = some b → P b) :
    All E P (q.push rlps) := by
  unfold DownloadingBlockQueue.push
  split
  · exact h
  refine ⟨h.blocks, fun rlps' hmem => ?_⟩
  cases mem_append.mp hmem with
  | inl hold => exact h.buffer rlps' hold
  | inr hlast =>
    rw [mem_singleton.mp hlast]
    exact hnew

lemma forall_pushBlock (h : ∀ b ∈ blocks, P b) (hnew : ∀ b, E.decodeBlock bytes = some b → P b) :
    ∀ b ∈ pushBlock E number blocks bytes, P b := by
  unfold pushBlock
  cases hdecode : E.decodeBlock bytes with
  | none => exact h
  | some b =>
    dsimp only
    split
    · intro b' hmem
      cases (mem_orderedInsert _).mp hmem with
      | inl heq =>
        rw [heq]
        exact hnew b hdecode
      | inr hold => exact h b' hold
    · exact h

lemma forall_foldl_pushBlock (h : ∀ b ∈ blocks, P b) (hnew : ∀ bytes ∈ rlps, ∀ b, E.decodeBlock bytes = some b → P b) :
    ∀ b ∈ rlps.foldl (pushBlock E number) blocks, P b :=
  foldlRecOn (motive := fun blocks => ∀ b ∈ blocks, P b) rlps (pushBlock E number) h fun _ hblocks bytes hmem =>
    forall_pushBlock hblocks (hnew bytes hmem)

lemma forall_flush {buffer : List (List Bytes)} (h : ∀ b ∈ blocks, P b)
    (hbuffer : ∀ rlps ∈ buffer, ∀ bytes ∈ rlps, ∀ b, E.decodeBlock bytes = some b → P b) :
    ∀ b ∈ flush E number buffer blocks, P b := by
  induction buffer generalizing blocks with
  | nil => exact h
  | cons rlps buffer ih =>
    unfold flush
    split
    · exact h
    · apply ih
      · exact forall_foldl_pushBlock h (hbuffer rlps mem_cons_self)
      · exact fun rlps' hmem => hbuffer rlps' (mem_cons_of_mem _ hmem)

lemma All.flushBufferToQueue (h : All E P q) : All E P (q.flushBufferToQueue E number) :=
  ⟨forall_flush h.blocks h.buffer, forall_mem_nil _⟩

lemma All.clearFullQueueIfNotHas (h : All E P q) (blockNumber : Int) :
    All E P (q.clearFullQueueIfNotHas blockNumber) := by
  unfold DownloadingBlockQueue.clearFullQueueIfNotHas
  split
  · exact ⟨forall_mem_nil _, h.buffer⟩
  · exact h

end DownloadingBlockQueue

namespace PBFTEngine

variable {amb : Ambient} {s : PBFTEngine} {k : Nat}

def Binding (E : Env) (asBytes : Hash → Bytes) (k : Nat) (s : PBFTEngine) : Prop :=
  Built E (fun _ b => b.Bound E asBytes) k s

variable (hzero : ∀ h, E.headerHash h ≠ 0)
include hzero

lemma binding_checkBlock (b : Block) (hs : Binding E asBytes k s) : Binding E asBytes k (s.checkBlock E amb b).2 := by
  apply built_step hzero (ofProposal_bound E asBytes) s (.checkBlock b, amb) ?_ hs
  refine ⟨fun r b' htakes _ => ?_, fun b' he => by cases he⟩
  cases htakes.1

lemma binding_syncBlock (hb : b.Bound E asBytes) (hs : Binding E asBytes k s) :
    Binding E asBytes k (s.syncBlock E b) := by
  apply built_step hzero (ofProposal_bound E asBytes) s (.syncBlock b, {}) ?_ hs
  refine ⟨fun r b' htakes _ => ?_, fun b' he => ?_⟩
  · cases htakes.1
  · cases he
    exact hb

lemma binding_importBlock (hb : b.Bound E asBytes) (hs : Binding E asBytes k s) :
    Binding E asBytes k (s.importBlock E amb b) := by
  have hnext : Binding E asBytes k (s.isNextBlock E amb b).2 := by
    unfold isNextBlock
    split
    · exact hs
    · split
      · exact hs
      · exact binding_checkBlock hzero b hs
  unfold importBlock
  dsimp only
  split
  · split
    · exact binding_syncBlock hzero hb.executeBlock hnext
    · exact hnext
  · exact hnext

lemma binding_importBlocks {blocks : List Block} (hblocks : ∀ b ∈ blocks, b.Bound E asBytes)
    (hs : Binding E asBytes k s) :
    Binding E asBytes k (s.importBlocks E amb blocks).1 ∧ ∀ b ∈ (s.importBlocks E amb blocks).2, b.Bound E asBytes := by
  induction blocks generalizing s with
  | nil => exact ⟨hs, hblocks⟩
  | cons b blocks ih =>
    unfold importBlocks
    split
    · apply ih
      · exact fun b' hmem => hblocks b' (mem_cons_of_mem _ hmem)
      · exact binding_importBlock hzero (hblocks b mem_cons_self) hs
    · exact ⟨hs, hblocks⟩

end PBFTEngine

namespace SyncMaster

/-- The proposals the node takes up and the blocks its peers send carry the roots of their transactions. -/
structure TakesBound (E : Env) (asBytes : Hash → Bytes) (n : SyncMaster) (e : Event × Ambient) : Prop where
  proposals : ∀ e' r b, e.1 = .engine e' → Takes E n.engine (e', e.2) r → proposedBlock E r = some b → b.Bound E asBytes
  received : ∀ rlps, e.1 = .onPeerBlocks rlps → ∀ bytes ∈ rlps, ∀ b, E.decodeBlock bytes = some b → b.Bound E asBytes

structure Bound (E : Env) (asBytes : Hash → Bytes) (k : Nat) (n : SyncMaster) : Prop where
  engine : Binding E asBytes k n.engine
  bq : n.bq.All E fun b => b.Bound E asBytes

variable {k : Nat}

lemma bound_step (hzero : ∀ h, E.headerHash h ≠ 0) (n : SyncMaster) (e : Event × Ambient)
    (he : TakesBound E asBytes n e) (hn : Bound E asBytes k n) : Bound E asBytes k (step E n e) := by
  obtain ⟨e, amb⟩ := e
  have hempty := all_empty E fun b => b.Bound E asBytes
  cases e with
  | engine e =>
    have hstep (hsync : ∀ b, e ≠ .syncBlock b) :
        Bound E asBytes k { n with engine := PBFTEngine.step E n.engine (e, amb) } := by
      refine ⟨?_, hn.bq⟩
      apply built_step hzero (ofProposal_bound E asBytes) n.engine (e, amb) ?_ hn.engine
      exact ⟨fun r b htakes => he.proposals e r b rfl htakes, fun b hb => absurd hb (hsync b)⟩
    cases e with
    | syncBlock => exact hn
    | _ => exact hstep fun _ h => by cases h
  | onPeerBlocks rlps => exact ⟨hn.engine, hn.bq.push (he.received rlps rfl)⟩
  | maintainPeersStatus => exact ⟨hn.engine, hn.bq⟩
  | maintainDownloadingQueueBuffer =>
    refine ⟨hn.engine, ?_⟩
    change All E _ (if n.downloading then _ else _)
    split
    · exact (hn.bq.clearFullQueueIfNotHas _).flushBufferToQueue
    · exact hempty
  | maintainDownloadingQueue =>
    change Bound E asBytes k (n.maintainDownloadingQueue E amb)
    unfold SyncMaster.maintainDownloadingQueue
    split
    · split
      · exact ⟨hn.engine, hempty⟩
      have himport : Binding E asBytes k (n.engine.importBlocks E amb n.bq.blocks).1 ∧
          ∀ b ∈ (n.engine.importBlocks E amb n.bq.blocks).2, b.Bound E asBytes :=
        binding_importBlocks hzero hn.bq.blocks hn.engine
      exact ⟨himport.1, himport.2, hn.bq.buffer⟩
    · exact hn

end SyncMaster

/-- A start and the events after it. -/
structure NodeRun where
  amb : Ambient
  cfg : NodeConfig
  backup : Option WireMsg := none
  es : List (SyncMaster.Event × Ambient)

namespace NodeRun

variable (E : Env) (asBytes : Hash → Bytes) (r : NodeRun)

def start : SyncMaster :=
  { engine := PBFTEngine.start E r.amb r.cfg r.backup }

def committed : List Block :=
  (Machine.run (SyncMaster.step E) (r.start E) r.es).engine.blockChain.blocks.drop r.cfg.blockChain.blocks.length

def TakesBound : Prop :=
  Machine.Along (SyncMaster.step E) (SyncMaster.TakesBound E asBytes) (r.start E) r.es

variable {E asBytes r}

lemma bound_committed (hzero : ∀ h, E.headerHash h ≠ 0) (hr : r.TakesBound E asBytes) :
    ∀ b ∈ r.committed E, b.Bound E asBytes := by
  have hstart : SyncMaster.Bound E asBytes r.cfg.blockChain.blocks.length (r.start E) :=
    ⟨built_start E r.amb r.cfg r.backup (stacked_length _ _), all_empty E _⟩
  have hend := Machine.invariant_run (SyncMaster.Bound E asBytes r.cfg.blockChain.blocks.length)
    (SyncMaster.bound_step hzero) hstart hr
  intro b hb
  obtain ⟨i, hi⟩ := mem_iff_getElem?.mp hb
  rw [committed, getElem?_drop] at hi
  exact hend.engine.stacked _ b (by omega) hi

end NodeRun

/-- In every run in which the proposals taken up and the blocks received carry the roots of their transactions, the
committed blocks do, and nodes that commit one header hash commit the same transactions. -/
theorem committed_transactions_eq (hcol : Collisionless E asBytes) (hzero : ∀ h, E.headerHash h ≠ 0) (r r' : NodeRun)
    (hr : r.TakesBound E asBytes) (hr' : r'.TakesBound E asBytes) :
    (∀ b ∈ r.committed E, b.header.transactionsRoot = calTransactionRoot E asBytes b.transactions) ∧
      ∀ b ∈ r.committed E, ∀ b' ∈ r'.committed E, b.hash E = b'.hash E → b.transactions = b'.transactions := by
  have hbound := NodeRun.bound_committed hzero hr
  have hbound' := NodeRun.bound_committed hzero hr'
  exact ⟨hbound, fun b hb b' hb' h => (hbound b hb).transactions_eq hcol (hbound' b' hb') h⟩

/-!
A symbolic environment in which proposals carry the root of their transactions, and execution sees no more of the
transactions than their number.
-/

namespace Symbolic

/-- A list as one number: the bits of its elements, each with their number in unary in front. -/
def bitCode : List Nat → Nat
  | [] => 0
  | x :: xs =>
    let k := Nat.log2 x + 1
    2 ^ k * (2 * (x + 2 ^ k * bitCode xs) + 1)

lemma two_pow_mul_odd_inj {k k' a a' : Nat} (h : 2 ^ k * (2 * a + 1) = 2 ^ k' * (2 * a' + 1)) : k = k' ∧ a = a' := by
  induction k generalizing k' with
  | zero =>
    cases k' with
    | zero => omega
    | succ =>
      rw [Nat.pow_succ, Nat.mul_right_comm] at h
      omega
  | succ k ih =>
    cases k' with
    | zero =>
      rw [Nat.pow_succ, Nat.mul_right_comm] at h
      omega
    | succ k' =>
      rw [Nat.pow_succ, Nat.pow_succ, Nat.mul_right_comm, Nat.mul_right_comm (2 ^ k')] at h
      obtain ⟨hk, ha⟩ := ih (Nat.mul_right_cancel (by decide) h)
      exact ⟨by rw [hk], ha⟩

lemma bitCode_cons_pos {x : Nat} {xs : List Nat} : 0 < bitCode (x :: xs) :=
  Nat.mul_pos (Nat.two_pow_pos _) (Nat.succ_pos _)

lemma bitCode_injective : Function.Injective bitCode := by
  intro l
  induction l with
  | nil =>
    intro l' h
    cases l' with
    | nil => rfl
    | cons => exact absurd h bitCode_cons_pos.ne
  | cons x xs ih =>
    intro l' h
    cases l' with
    | nil => exact absurd h bitCode_cons_pos.ne'
    | cons x' =>
      obtain ⟨hk, ha⟩ := two_pow_mul_odd_inj h
      have hx := Nat.lt_log2_self (n := x)
      have hx' := Nat.lt_log2_self (n := x')
      rw [← hk] at ha hx'
      have hfirst := congrArg (· % 2 ^ (Nat.log2 x + 1)) ha
      have hrest := congrArg (· / 2 ^ (Nat.log2 x + 1)) ha
      simp only [Nat.add_mul_mod_self_left, Nat.mod_eq_of_lt hx, Nat.mod_eq_of_lt hx'] at hfirst
      simp only [Nat.add_mul_div_left _ _ (Nat.two_pow_pos _), Nat.div_eq_of_lt hx, Nat.div_eq_of_lt hx',
        zero_add] at hrest
      rw [hfirst, ih hrest]

def encodeRooted (b : Block) : Bytes :=
  b.header.transactionsRoot :: b.header.receiptsRoot :: b.header.stateRoot :: b.sigList.length ::
    (b.sigList.flatMap (fun q => q.1 :: q.2) ++ encodeBlock b)

def decodeSigList : Nat → Bytes → Option (List (Nat × Bytes) × Bytes)
  | 0, bytes => some ([], bytes)
  | n + 1, idx :: key :: h :: nonce :: bytes =>
    (decodeSigList n bytes).map fun q => ((idx, [key, h, nonce]) :: q.1, q.2)
  | _, _ => none

def decodeRooted : Bytes → Option Block
  | root :: receiptsRoot :: stateRoot :: n :: bytes =>
    (decodeSigList n bytes).bind fun q =>
      (decodeBlock q.2).map fun b =>
        { b with
          header :=
            { b.header with transactionsRoot := root, receiptsRoot := receiptsRoot, stateRoot := stateRoot }
          sigList := q.1 }
  | _ => none

def rootedEnv : Env :=
  { env with
    txHash := bitCode
    encodeBlock := encodeRooted
    decodeBlock := decodeRooted
    runTransactions := fun info _ txs =>
      some { receiptsRoot := txs.length + 1, stateRoot := info.stateRoot + txs.length, dbHash := 0 } }

lemma collisionless_rootedEnv : Collisionless rootedEnv hashBytes :=
  { collisionless_env with header := headerHash_injective, transaction := bitCode_injective }

def rootedBlock : Block where
  header := { (block 7).header with transactionsRoot := calTransactionRoot rootedEnv hashBytes [[7]] }
  transactions := [[tx]]

def executedBlock : Block :=
  (executeBlock rootedEnv 0 (chain.headInfo rootedEnv) (rootedBlock tx)).1

def rootedHash : Hash :=
  (executedBlock 7).hash rootedEnv

def engineEvent (e : PBFTEngine.Event × Ambient) : SyncMaster.Event × Ambient :=
  (.engine e.1, e.2)

def rootedRound : List (SyncMaster.Event × Ambient) :=
  [deliver .PrepareReqPacket false (wire 0 0 ((rootedBlock 7).hash rootedEnv) 0
      (some (rootedEnv.encodeBlock (rootedBlock tx)))),
    deliver .SignReqPacket false (wire 0 0 rootedHash 0 none),
    deliver .SignReqPacket false (wire 2 0 rootedHash 0 none),
    deliver .CommitReqPacket false (wire 0 0 rootedHash 0 none),
    deliver .CommitReqPacket false (wire 2 0 rootedHash 0 none)].map engineEvent

def rootedRun : NodeRun where
  amb := ambient
  cfg := { keyPair := 12, blockChain := chain }
  es := rootedRound tx

def downloadRun : NodeRun where
  amb := ambient
  cfg := { keyPair := 14, blockChain := chain }
  es :=
    [(.maintainPeersStatus true 1, ambient), (.onPeerBlocks [rootedEnv.encodeBlock { executedBlock tx with
        sigList := [(0, env.sign 11 rootedHash 0), (1, env.sign 12 rootedHash 0), (2, env.sign 13 rootedHash 0)] }],
        ambient),
      (.maintainDownloadingQueueBuffer, ambient), (.maintainDownloadingQueue, ambient)]

variable {n : SyncMaster}

lemma takesBound_deliver {kind : PacketType} {flag : Bool} {w : WireMsg}
    (hblock : (w.block.bind rootedEnv.decodeBlock).all (fun b => decide (b.Bound rootedEnv hashBytes)) = true) :
    SyncMaster.TakesBound rootedEnv hashBytes n (engineEvent (deliver kind flag w)) := by
  refine ⟨fun e' r b he htakes hb => ?_, fun _ he => (by cases he)⟩
  cases he
  exact of_decide_eq_true (of_all_deliver hblock htakes.1 hb)

lemma takesBound_rootedRun : (rootedRun 7).TakesBound rootedEnv hashBytes :=
  ⟨takesBound_deliver (by decide +kernel), takesBound_deliver (by decide +kernel),
    takesBound_deliver (by decide +kernel), takesBound_deliver (by decide +kernel),
    takesBound_deliver (by decide +kernel), trivial⟩

lemma takesBound_quiet {e : SyncMaster.Event} {amb : Ambient} (hengine : ∀ e', e ≠ .engine e')
    (hblocks : ∀ rlps, e ≠ .onPeerBlocks rlps) : SyncMaster.TakesBound rootedEnv hashBytes n (e, amb) :=
  ⟨fun e' _ _ he => absurd he (hengine e'), fun rlps he => absurd he (hblocks rlps)⟩

lemma takesBound_onPeerBlocks {amb : Ambient}
    (hblock : (rootedEnv.decodeBlock bytes).all (fun b => decide (b.Bound rootedEnv hashBytes)) = true) :
    SyncMaster.TakesBound rootedEnv hashBytes n (.onPeerBlocks [bytes], amb) := by
  refine ⟨fun _ _ _ he => (by cases he), fun rlps he bytes' hmem b hb => ?_⟩
  cases he
  rw [mem_singleton.mp hmem] at hb
  rw [hb] at hblock
  simpa using hblock

lemma takesBound_downloadRun : (downloadRun 7).TakesBound rootedEnv hashBytes := by
  refine ⟨takesBound_quiet ?_ ?_, takesBound_onPeerBlocks (by decide +kernel), takesBound_quiet ?_ ?_,
    takesBound_quiet ?_ ?_, trivial⟩
  all_goals
    intro _ h
    cases h

theorem committed_transactions_eq_of_download :
    ((rootedRun 7).committed rootedEnv).length = 1 ∧ ((downloadRun 7).committed rootedEnv).length = 1 ∧
      ∀ b ∈ (rootedRun 7).committed rootedEnv, ∀ b' ∈ (downloadRun 7).committed rootedEnv,
        b.hash rootedEnv = b'.hash rootedEnv → b.transactions = b'.transactions :=
  ⟨by decide +kernel, by decide +kernel,
    (committed_transactions_eq collisionless_rootedEnv headerHash_ne_zero (rootedRun 7) (downloadRun 7)
      takesBound_rootedRun takesBound_downloadRun).2⟩

/-- The header carries the root of transaction 7. The leader sends it with transaction 7 to one node and with
transaction 8 to another one, and a peer sends it with transaction 8 and the signatures of the sealers to a third. All
three commit it. -/
theorem not_committed_transactions_eq : ((rootedRun 7).committed rootedEnv).map transactions = [[[7]]] ∧
      ((rootedRun 8).committed rootedEnv).map transactions = [[[8]]] ∧
      ((downloadRun 8).committed rootedEnv).map transactions = [[[8]]] ∧
      ((rootedRun 8).committed rootedEnv).map (hash rootedEnv) =
        ((rootedRun 7).committed rootedEnv).map (hash rootedEnv) ∧
      ((downloadRun 8).committed rootedEnv).map (hash rootedEnv) =
        ((rootedRun 7).committed rootedEnv).map (hash rootedEnv) ∧
      ∀ b ∈ (rootedRun 8).committed rootedEnv ++ (downloadRun 8).committed rootedEnv,
        b.header.transactionsRoot ≠ calTransactionRoot rootedEnv hashBytes b.transactions := by
  decide +kernel

end Symbolic

end FiscoBcos
