import FiscoBcos.Pbft.CommitLock

/-!
# What is executed, and what is locked

Every proposal that is executed has been checked against the height, the view and the leader of that very moment. The raw
prepare that becomes the lock is the proposal whose execution gave the prepare cache.
-/

namespace FiscoBcos

open Symbolic Machine List

variable {prepared raw : PrepareReq} {bl : Block}

structure ExecCall.OfLeader (E : Env) (c : ExecCall) : Prop where
  height : c.req.height = c.consensusBlockNumber
  view : c.req.view = c.view
  leader : c.leader = some c.req.idx
  sign : getSealerByIndex c.sealers c.req.idx ≠ 0 ∧
    E.verify (getSealerByIndex c.sealers c.req.idx) c.req.sig c.req.blockHash = true ∧
      E.verify (getSealerByIndex c.sealers c.req.idx) c.req.sig2
        (c.req.toPBFTMsg.fieldsWithoutBlock E) = true

namespace PBFTEngine

variable {E : Env} {amb : Ambient} {s₀ a b : PBFTEngine} {e : Event}

lemma ofLeader_of_validPrepare {s : PBFTEngine} {req : PrepareReq} (h : ValidPrepare E s req) :
    ExecCall.OfLeader E ⟨req, s.consensusBlockNumber, s.view, s.getLeader, s.sealerList⟩ := by
  have hsign := h.sign
  simp only [checkSign, Bool.and_eq_true, bne_iff_ne] at hsign
  exact ⟨h.height, h.view, h.leader, hsign⟩

lemma lockAndVote_calls (s : PBFTEngine) : (s.lockAndVote E amb).calls = s.calls := by
  unfold lockAndVote broadcastCommitReq note
  dsimp only

lemma countAndVote_calls (s : PBFTEngine) : (s.countAndVote E amb).calls = s.calls := by
  obtain ⟨m, -, hc | ⟨-, -, hc⟩⟩ := countAndVote_cases
  · rw [hc]
    rfl
  · rw [hc, lockAndVote_calls]
    rfl

lemma checkAndSave_calls (s : PBFTEngine) : (s.checkAndSave E).calls = s.calls := by
  obtain ⟨m, m', -, -, hs | ⟨b, -, -, -, -, hs⟩⟩ := checkAndSave_cases E s
  · rw [hs]
    rfl
  · rw [hs, saveBlock_eq]
    rfl

lemma SmallStep.calls (h : SmallStep E amb s₀ e a b) :
    b.calls = a.calls ∨ ∃ c, b.calls = c :: a.calls ∧ c.OfLeader E := by
  have haccept : ∀ req, s₀.isValidPrepare E amb req = .VALID → Ready s₀ a →
      ExecCall.OfLeader E ⟨req, a.consensusBlockNumber, a.view, a.getLeader, a.sealerList⟩ := by
    intro req hv hready
    rw [← hready.isValidPrepare] at hv
    exact ofLeader_of_validPrepare (validPrepare_of_isValidPrepare hv)
  cases h with
  | accept full req ho hv hready => exact .inr ⟨_, rfl, haccept req hv hready⟩
  | execute full req bl result ho hv hready => exact .inr ⟨_, rfl, haccept req hv hready⟩
  | prepare full req bl result context ho hv hready =>
    refine .inr ⟨_, ?_, haccept req hv hready⟩
    rw [countAndVote_calls]
    rfl
  | signVote =>
    left
    rw [countAndVote_calls]
  | save => exact .inl (checkAndSave_calls a)
  | report =>
    left
    exact reportBlockWithoutLock_rec (P := fun s => s.calls = a.calls) rfl (fun _ => rfl) fun _ => rfl
  | reset => exact .inl (resetConfig_rec (P := fun s => s.calls = a.calls) fun _ => rfl)
  | sync => exact .inl (syncBlock_rec (P := fun s => s.calls = a.calls) rfl rfl)
  | _ => exact .inl rfl

lemma ofLeader_smallStep (h : SmallStep E amb s₀ e a b) (ha : ∀ c ∈ a.calls, c.OfLeader E) :
    ∀ c ∈ b.calls, c.OfLeader E := by
  intro c hc
  rcases h.calls with hsame | ⟨c', hnew, hleader⟩
  · rw [hsame] at hc
    exact ha c hc
  rw [hnew] at hc
  rcases mem_cons.mp hc with rfl | hold
  · exact hleader
  · exact ha c hold

lemma start_calls (E : Env) (amb : Ambient) (cfg : NodeConfig) (backup : Option WireMsg) :
    (start E amb cfg backup).calls = [] := by
  obtain ⟨_, h, -⟩ := start_cases E amb cfg backup
  rw [h]

/-- Whatever a node is sent, it only ever begins to execute proposals of the leader of that moment, for
the height and the view of that moment, whose two signatures verify under the leader's key. -/
theorem calls_ofLeader (E : Env) (amb : Ambient) (cfg : NodeConfig) (backup : Option WireMsg)
    (es : List (Event × Ambient)) :
    ∀ c ∈ (run (step E) (start E amb cfg backup) es).calls, c.OfLeader E := by
  apply run_induction fun s : PBFTEngine => ∀ c ∈ s.calls, c.OfLeader E
  · exact fun s e => invariant_step (fun s => ∀ c ∈ s.calls, c.OfLeader E) fun _ _ => ofLeader_smallStep
  · rw [start_calls]
    exact List.forall_mem_nil _

theorem calls_ofLeader_of_propose :
    ∃ c ∈ (run (step env) (start env ambient
        { keyPair := 12, blockChain := chain } none)
        [propose false (block 5)]).calls, c.OfLeader env := by
  have hcalls : (run (step env) (start env ambient
      { keyPair := 12, blockChain := chain } none)
      [propose false (block 5)]).calls ≠ [] := by
    decide +kernel
  obtain ⟨c, hc⟩ := exists_mem_of_ne_nil _ hcalls
  exact ⟨c, hc, calls_ofLeader _ _ _ _ _ c hc⟩

section

variable {chain chain' : BlockChain}

section

variable (E : Env) (chain : BlockChain) (raw prepared : PrepareReq)

/-- `prepared` is the executed form of the proposal `raw`, whose own block, if it carries one, has been
executed in place. It was executed on the block before it on the chain. The signature list of the block is no part of its
execution. -/
def ExecutedFrom : Prop :=
  ∃ p b parent result, raw = executedRaw p result ∧ proposedBlock E p = some b ∧
    chain.getBlockByNumber (b.header.number - 1) = some parent ∧
      executeBlock E b.header.number (parent.info E) b = (result, true) ∧ prepared.blockHash = result.hash E ∧
        ∃ b', prepared.pBlock = some b' ∧ b'.header = result.header ∧ b'.transactions = result.transactions

/-- `prepared` comes from the execution of `raw`. -/
structure RawExecuted : Prop where
  height : raw.height = prepared.height
  view : raw.view = prepared.view
  idx : raw.idx = prepared.idx
  block : ExecutedFrom E chain raw prepared

end

/-- What keeps raw prepare and prepare cache together: a partial proposal completed on its arrival is
voted for or finds the prepare cache clear, the view is not the one that marks a cleared request, and the execution of a
proposal without transactions goes through. The node checks that only if there are transactions. -/
structure CompletionSafe (E : Env) (s : PBFTEngine) (e : Event × Ambient) : Prop where
  completed : ∀ p r, e.1 = .handlePartiallyPrepare p → Takes E s e r →
    s.reqCache.proposal = none ∨ Voted E e.2 s r
  view : s.view ≠ MAXVIEW
  executed : ∀ r b, Takes E s e r → proposedBlock E r = some b → b.transactions = [] → s.omitEmptyBlock = false →
    (executeBlock E e.2.executingNumber (s.blockChain.headInfo E) b).2 = true

structure LocksExecuted (E : Env) (chain : BlockChain) (s : PBFTEngine) : Prop where
  cached : s.reqCache.proposal ≠ none →
    RawExecuted E chain s.reqCache.rawPrepareCache s.reqCache.prepareCache
  logged : ∀ t raw, .updateCommittedPrepare t raw ∈ s.log → RawExecuted E chain raw t.prepared

lemma RawExecuted.withBlock {o : Option Block} (h : RawExecuted E chain raw prepared)
    (ho : o.map (fun b => (b.header, b.transactions)) = prepared.pBlock.map fun b => (b.header, b.transactions)) :
    RawExecuted E chain raw { prepared with pBlock := o } := by
  obtain ⟨p, b, parent, result, hraw, hb, hparent, hexec, hhash, b', hb', hheader, htx⟩ := h.block
  rw [hb'] at ho
  obtain ⟨bl, rfl, heq⟩ := Option.map_eq_some_iff.mp ho
  exact ⟨h.height, h.view, h.idx, p, b, parent, result, hraw, hb, hparent, hexec, hhash, bl, rfl,
    (Prod.mk.inj heq).1.trans hheader, (Prod.mk.inj heq).2.trans htx⟩

lemma RawExecuted.mono (h : RawExecuted E chain raw prepared)
    (hchain : ∀ i x, chain.getBlockByNumber i = some x → chain'.getBlockByNumber i = some x) :
    RawExecuted E chain' raw prepared := by
  obtain ⟨p, b, parent, result, hraw, hb, hparent, hrest⟩ := h.block
  exact ⟨h.height, h.view, h.idx, p, b, parent, result, hraw, hb, hchain _ _ hparent, hrest⟩

lemma LocksExecuted.mono (ha : LocksExecuted E chain a)
    (hchain : ∀ i x, chain.getBlockByNumber i = some x → chain'.getBlockByNumber i = some x) :
    LocksExecuted E chain' a :=
  ⟨fun hset => (ha.cached hset).mono hchain, fun t raw hmem => (ha.logged t raw hmem).mono hchain⟩

lemma LocksExecuted.kept (ha : LocksExecuted E chain a) (hkept : Kept a.reqCache b.reqCache)
    (hraw : b.reqCache.proposal = none ∨ b.reqCache.rawPrepareCache = a.reqCache.rawPrepareCache)
    (hlog : QuietAfter a.log b.log) : LocksExecuted E chain b := by
  refine ⟨fun hset => ?_, fun t raw hmem => ha.logged t raw (mem_log_of_quiet hlog hmem rfl)⟩
  cases hkept with
  | cleared r hcache hproposal => exact absurd hproposal hset
  | same o hcache hblock hproposal =>
    rw [hraw.resolve_left hset, hcache]
    exact (ha.cached (hproposal ▸ hset)).withBlock hblock

variable {s : PBFTEngine}

lemma LocksExecuted.lockAndVote (hs : LocksExecuted E chain s)
    (hset : s.reqCache.proposal ≠ none) : LocksExecuted E chain (s.lockAndVote E amb) := by
  constructor
  · intro _
    exact hs.cached hset
  · intro t raw hmem
    rw [lockAndVote_log] at hmem
    simp only [mem_cons, reduceCtorEq, Action.updateCommittedPrepare.injEq, false_or] at hmem
    rcases hmem with ⟨rfl, rfl⟩ | hold
    · exact hs.cached hset
    · exact hs.logged t raw hold

lemma LocksExecuted.countAndVote (hs : LocksExecuted E chain s) (hp : Prepared E s)
    (hmax : s.view ≠ MAXVIEW) : LocksExecuted E chain (s.countAndVote E amb) := by
  have hsigns : ∀ m, LocksExecuted E chain (s.withSigns m) := fun _ => ⟨hs.cached, hs.logged⟩
  obtain ⟨m, -, hc | ⟨hview, -, hc⟩⟩ := countAndVote_cases
  · rw [hc]
    exact hsigns m
  · rw [hc]
    exact (hsigns m).lockAndVote (hp.proposal_ne_none hview hmax)

lemma executedFrom_of_execution {r : PrepareReq} {result : Block} (hzero : ∀ h, E.headerHash h ≠ 0)
    (hexec : Execution E amb s r bl result true) :
    ExecutedFrom E s.blockChain (executedRaw r result) (r.executed E s.keyPair result true amb.executedStamp) := by
  have hnumber := hexec.number hzero
  have hresult := hexec.result
  have hle : amb.executingNumber ≤ bl.header.number := by
    by_contra hlt
    unfold executeBlock at hresult
    rw [if_pos (not_le.mp hlt)] at hresult
    cases hresult
  rw [executeBlock_of_le hle] at hresult
  refine ⟨r, bl, s.blockChain.head, result, rfl, hexec.proposed, ?_, hresult, rfl, result, rfl, rfl, rfl⟩
  rw [hnumber, Int.add_sub_cancel]
  exact s.blockChain.getBlockByNumber_number

lemma LocksExecuted.prepareFor {full : Bool} {r : PrepareReq} {result : Block} {context : Bool}
    (ha : LocksExecuted E chain a)
    (hexec : ExecutedFrom E chain (executedRaw r result) (r.executed E a.keyPair result context amb.executedStamp)) :
    LocksExecuted E chain (a.prepareFor E amb full r bl result context) := by
  constructor
  · intro _
    rw [prepareFor_reqCache]
    have hheight : (executedRaw r result).height = r.height := by rw [executedRaw_toPBFTMsg]
    have hview : (executedRaw r result).view = r.view := by rw [executedRaw_toPBFTMsg]
    have hidx : (executedRaw r result).idx = r.idx := by rw [executedRaw_toPBFTMsg]
    exact ⟨hheight, hview, hidx, hexec⟩
  · intro t raw hmem
    rw [prepareFor_log] at hmem
    simp only [mem_cons, reduceCtorEq, false_or] at hmem
    exact ha.logged t raw hmem

lemma locksExecuted_smallStep (hzero : ∀ h, E.headerHash h ≠ 0) (hsafe : CompletionSafe E s₀ (e, amb))
    (h : SmallStep E amb s₀ e a b) (hp : Prepared E a) (ha : LocksExecuted E a.blockChain a) :
    LocksExecuted E b.blockChain b := by
  replace ha : LocksExecuted E b.blockChain a := ha.mono fun _ _ => h.getBlockByNumber
  cases h.effect with
  | prepare full req bl result context ht hready hexec hcontext =>
    have hframe : Frame a ((a.prepareFor E amb full req bl result context).countAndVote E amb) :=
      (frame_prepareFor a full req bl result context).trans frame_countAndVote
    have htrue : context = true := by
      rcases hcontext with htrue | hnil
      · exact htrue
      · have hdone := hsafe.executed req bl ht hexec.proposed hnil (by simpa [hnil] using hexec.kept)
        rw [hexec.result] at hdone
        exact hdone
    subst htrue
    have hfrom := executedFrom_of_execution hzero hexec
    rw [← hready.frame.blockChain, ← hframe.blockChain, ← hready.frame.keyPair] at hfrom
    refine (ha.prepareFor hfrom).countAndVote prepared_prepareFor ?_
    rw [(frame_prepareFor a full req bl result true).view, hready.frame.view]
    exact hsafe.view
  | signVote req hs =>
    subst hs
    exact LocksExecuted.countAndVote ⟨ha.cached, ha.logged⟩ (hp.congr rfl rfl) hsafe.view
  | quiet hcons hlock hlog hkept hraw => exact ha.kept hkept (hraw hsafe.completed) hlog

lemma locksExecuted_start {cfg : NodeConfig} {backup : Option WireMsg} :
    LocksExecuted E chain (start E amb cfg backup) := by
  constructor
  · intro hset
    exact absurd (fresh_start E amb cfg backup).proposal hset
  · intro t raw hmem
    rw [start_log] at hmem
    simp at hmem

lemma locksExecuted_step (hzero : ∀ h, E.headerHash h ≠ 0) (s : PBFTEngine) (e : Event × Ambient)
    (hsafe : CompletionSafe E s e) (hs : Prepared E s ∧ LocksExecuted E s.blockChain s) :
    Prepared E (step E s e) ∧ LocksExecuted E (step E s e).blockChain (step E s e) :=
  invariant_step (fun s => Prepared E s ∧ LocksExecuted E s.blockChain s) (fun _ _ h hab =>
    ⟨prepared_smallStep h hab.1, locksExecuted_smallStep hzero hsafe h hab.1 hab.2⟩) hs

/-- In every run in which each event meets `CompletionSafe`, whatever `checkAndCommit` locks is the
proposal whose execution gave the prepare cache the votes were counted for. -/
theorem rawExecuted_of_completionSafe (E : Env) (hzero : ∀ h, E.headerHash h ≠ 0) (amb : Ambient) (cfg : NodeConfig)
    (backup : Option WireMsg) (es : List (Event × Ambient))
    (hsafe : Along (step E) (CompletionSafe E) (start E amb cfg backup) es) (t : Tally)
    (raw : PrepareReq)
    (hlock : .updateCommittedPrepare t raw ∈ (run (step E) (start E amb cfg backup) es).log) :
    RawExecuted E (run (step E) (start E amb cfg backup) es).blockChain raw t.prepared := by
  have hinv := invariant_run (fun s => Prepared E s ∧ LocksExecuted E s.blockChain s) (locksExecuted_step hzero)
    ⟨(fresh_start E amb cfg backup).prepared, locksExecuted_start⟩ hsafe
  exact hinv.2.logged t raw hlock

lemma ExecutedFrom.transactions {b b' : Block} (h : ExecutedFrom E chain raw prepared) (hraw : raw.pBlock = some b)
    (hprepared : prepared.pBlock = some b') : b'.transactions = b.transactions := by
  obtain ⟨p, _, _, result, heq, -, -, -, -, bl, hbl, -, htx⟩ := h
  cases hprepared.symm.trans hbl
  unfold executedRaw at heq
  split at heq
  · rw [heq] at hraw
    rw [htx, ← Option.some.inj hraw]
  rename_i hnone
  rw [heq] at hraw
  rw [hraw] at hnone
  exact absurd rfl hnone

end

end PBFTEngine

namespace Symbolic

open PBFTEngine

def proposeHashes (b : Block) : Event × Ambient :=
  (.handlePartiallyPrepare
    { packetId := .PrepareReqPacket, nodeIdx := 0
      data := some (wire 0 0 (b.hash env) 0
        (some (env.encodeProposal b.header (b.transactions.map env.txHash)))) },
    { ambient with pool := fun h => b.transactions.find? fun t => env.txHash t == h })

def orphan (tx : Nat) : Block :=
  { block tx with header := { (block tx).header with parentHash := 1 } }

def hashNode : NodeConfig where
  keyPair := 12
  enablePrepareWithTxsHash := true
  blockChain := chain

def lockedTransactions : Action → Option (Option (List Bytes) × Option (List Bytes))
  | .updateCommittedPrepare t raw =>
    some (t.prepared.pBlock.map Block.transactions, raw.pBlock.map Block.transactions)
  | _ => none

/-- The executed block of one proposal is locked under the raw prepare of another one, whose execution
failed after it had been completed from the pool. -/
theorem not_rawExecuted_of_failed_completion :
    ∃ t raw, .updateCommittedPrepare t raw ∈
        (run (step env) (start env ambient hashNode none)
          [propose false (block 5), proposeHashes (orphan 6), voteFor .SignReqPacket 0 (block 5) 1,
            voteFor .SignReqPacket 2 (block 5) 1]).log ∧
      ∀ chain, ¬RawExecuted env chain raw t.prepared := by
  have hlocked : ∃ x ∈ (run (step env) (start env ambient hashNode none)
      [propose false (block 5), proposeHashes (orphan 6), voteFor .SignReqPacket 0 (block 5) 1,
        voteFor .SignReqPacket 2 (block 5) 1]).log,
      lockedTransactions x = some (some [[5]], some [[6]]) := by
    decide +kernel
  obtain ⟨x, hx, hblocks⟩ := hlocked
  cases x with
  | updateCommittedPrepare t raw =>
    refine ⟨t, raw, hx, fun chain h => ?_⟩
    simp only [lockedTransactions, Option.some.injEq, Prod.mk.injEq, Option.map_eq_some_iff] at hblocks
    obtain ⟨⟨b', hb', h5⟩, b, hb, h6⟩ := hblocks
    have htx := h.block.transactions hb hb'
    rw [h5, h6] at htx
    cases htx
  | _ => cases hblocks

lemma completionSafe_voteFor {s : PBFTEngine} {idx : Nat} {b : Block} {n : Nat} (hview : s.view ≠ MAXVIEW) :
    CompletionSafe env s (voteFor .SignReqPacket idx b n) := by
  refine ⟨fun p r he => (nomatch he), hview, fun r bl ht => ?_⟩
  cases ht.1 with
  | packet hkind => cases hkind

theorem rawExecuted_of_completionSafe_hashNode :
    (∃ t raw, .updateCommittedPrepare t raw ∈
        (run (step env) (start env ambient hashNode none)
          [proposeHashes (block 5), voteFor .SignReqPacket 0 (block 5) 1,
            voteFor .SignReqPacket 2 (block 5) 1]).log) ∧
      ∀ t raw, .updateCommittedPrepare t raw ∈
          (run (step env) (start env ambient hashNode none)
            [proposeHashes (block 5), voteFor .SignReqPacket 0 (block 5) 1,
              voteFor .SignReqPacket 2 (block 5) 1]).log →
        RawExecuted env (run (step env) (start env ambient hashNode none)
          [proposeHashes (block 5), voteFor .SignReqPacket 0 (block 5) 1,
            voteFor .SignReqPacket 2 (block 5) 1]).blockChain raw t.prepared := by
  constructor
  · have hlocked : ∃ x ∈ (run (step env) (start env ambient hashNode none)
        [proposeHashes (block 5), voteFor .SignReqPacket 0 (block 5) 1,
          voteFor .SignReqPacket 2 (block 5) 1]).log, (lockedTransactions x).isSome := by
      decide +kernel
    obtain ⟨x, hx, hlock⟩ := hlocked
    cases x with
    | updateCommittedPrepare t raw => exact ⟨t, raw, hx⟩
    | _ => cases hlock
  · intro t raw hmem
    refine rawExecuted_of_completionSafe env headerHash_ne_zero ambient hashNode none _ ?_ t raw hmem
    refine ⟨⟨fun p r _ _ => .inl (by decide +kernel), by decide +kernel, fun r b ht hb hnil => ?_⟩,
      completionSafe_voteFor (by decide +kernel), completionSafe_voteFor (by decide +kernel), trivial⟩
    cases ht.1 with
    | hit hdecode hproposal =>
      cases hdecode
      cases hproposal
      cases hb
      cases hnil

end Symbolic

end FiscoBcos
