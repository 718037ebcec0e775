import FiscoBcos.Pbft.Basics

/-!
# From proposals to executed blocks and sign requests

Which proposals the sign requests of a node are for, and how the block a node executes for a proposal
is related to what the leader has signed.
-/

namespace FiscoBcos

open List Machine PrepareReq

variable {s : PBFTEngine} (log : List Action)

def Action.signVote : Action → Option (SignReq × PrepareReq)
  | .broadcastSignReq req p => some (req, p)
  | _ => none

def signVotes : List (SignReq × PrepareReq) :=
  log.filterMap Action.signVote

def SignsOnce : Prop :=
  ∀ v ∈ signVotes log, ∀ v' ∈ signVotes log,
    v.1.height = v'.1.height → v.1.view = v'.1.view → v.1.blockHash = v'.1.blockHash

instance (log : List Action) : Decidable (SignsOnce log) := by
  unfold SignsOnce
  infer_instance

lemma mem_signVotes {log : List Action} {v : SignReq × PrepareReq} :
    v ∈ signVotes log ↔ .broadcastSignReq v.1 v.2 ∈ log := by
  unfold signVotes
  rw [mem_filterMap]
  constructor
  · rintro ⟨a, ha, hv⟩
    cases a <;> cases hv
    exact ha
  · intro h
    exact ⟨_, h, rfl⟩

namespace PBFTEngine

def leaderOf (sealers : List NodeID) (height view : Int) : Nat :=
  ((view + (height - 1)) % ((sealers.length % (MAXIDX + 1) : Nat) : Int)).toNat

/-- The packet is of the height and view and carries a signature of their leader over its fields. The block bytes are not
under the signature. -/
structure ProposedBy (E : Env) (sealers : List NodeID) (n v : Int) (p : PrepareReq) : Prop where
  height : p.height = n
  view : p.view = v
  leader : p.idx = leaderOf sealers n v
  sign : checkSign E sealers p.toPBFTMsg = true

def SignsExecuted (E : Env) (chain : BlockChain) (v : SignReq × PrepareReq) : Prop :=
  ∃ b parent, proposedBlock E v.2 = some b ∧ chain.getBlockByNumber (b.header.number - 1) = some parent ∧
      v.1.blockHash = (executeBlock E b.header.number (parent.info E) b).1.hash E

def SignsForLeader (E : Env) (sealers : List NodeID) (log : List Action) : Prop :=
  ∀ v ∈ signVotes log, ∀ v' ∈ signVotes log,
    v.1.height = v'.1.height → v.1.view = v'.1.view → v.1.blockHash ≠ v'.1.blockHash →
      ProposedBy E sealers v.1.height v.1.view v.2 ∧ ProposedBy E sealers v.1.height v.1.view v'.2 ∧
        proposedBlock E v.2 ≠ proposedBlock E v'.2

structure Signs (E : Env) (sealers : List NodeID) (s : PBFTEngine) : Prop where
  proposed : ∀ v ∈ signVotes s.log, ProposedBy E sealers v.1.height v.1.view v.2
  executed : ∀ v ∈ signVotes s.log, SignsExecuted E s.blockChain v

variable {E : Env} {amb : Ambient} {s₀ a b : PBFTEngine} {e : Event} {sealers : List NodeID} {limit : Nat}

lemma leader_eq_leaderOf {idx : Nat} (hheights : Heights s₀) (hconf : Configured sealers limit s₀)
    (hleader : s₀.getLeader = some idx) : idx = leaderOf sealers s₀.consensusBlockNumber s₀.view := by
  unfold getLeader at hleader
  split at hleader
  · cases hleader
  · cases hleader
    unfold leaderOf
    rw [hheights.consensus, Int.add_sub_cancel, ← hconf.nodeNum]

lemma signs_smallStep (hzero : ∀ h, E.headerHash h ≠ 0) (hexecuting : amb.executingNumber ≤ s₀.blockChain.number + 1)
    (hheights : Heights s₀) (hconf : Configured sealers limit s₀) (h : SmallStep E amb s₀ e a b)
    (ha : Signs E sealers a) : Signs E sealers b := by
  obtain ⟨l, hlog, hlogged⟩ := h.logged
  -- a sign request is either an old one or was cast for the proposal that has just been executed
  have hcases : ∀ v ∈ signVotes b.log, v ∈ signVotes a.log ∨ Logged E amb s₀ e a (.broadcastSignReq v.1 v.2) := by
    intro v hv
    rw [mem_signVotes, hlog, mem_append] at hv
    rcases hv with hnew | hold
    · exact .inr (hlogged _ hnew)
    · exact .inl (mem_signVotes.mpr hold)
  refine ⟨fun v hv => ?_, fun v hv => ?_⟩
  · rcases hcases v hv with hold | hnew
    · exact ha.proposed v hold
    obtain ⟨ht, -, _, _, _, -, -, hr⟩ := hnew.of_broadcastSignReq
    have hvalid := validPrepare_of_isValidPrepare ht.2
    have hleader := leader_eq_leaderOf hheights hconf hvalid.leader
    rw [hr]
    refine ⟨rfl, rfl, ?_, ?_⟩
    · rw [← hvalid.height, ← hvalid.view] at hleader
      exact hleader
    · rw [← hconf.sealerList]
      exact hvalid.sign
  · rcases hcases v hv with hold | hnew
    · obtain ⟨bl, parent, hbl, hparent, hhash⟩ := ha.executed v hold
      exact ⟨bl, parent, hbl, h.getBlockByNumber hparent, hhash⟩
    obtain ⟨-, hready, bl, result, context, hexec, -, hr⟩ := hnew.of_broadcastSignReq
    have hnumber := hexec.number hzero
    refine ⟨bl, s₀.blockChain.head, hexec.proposed, h.getBlockByNumber ?_, ?_⟩
    · rw [hready.frame.blockChain, hnumber, Int.add_sub_cancel]
      exact s₀.blockChain.getBlockByNumber_number
    have hresult := hexec.result
    rw [executeBlock_of_le (by omega)] at hresult
    rw [hr]
    exact congrArg (fun q => Block.hash E (Prod.fst q)) hresult.symm

lemma Signs.forLeader (hs : Signs E sealers s) : SignsForLeader E sealers s.log := by
  intro v hv v' hv' hheight hview hne
  refine ⟨hs.proposed v hv, ?_, fun hsame => hne ?_⟩
  · rw [hheight, hview]
    exact hs.proposed v' hv'
  obtain ⟨bl, parent, hbl, hparent, hhash⟩ := hs.executed v hv
  obtain ⟨bl', parent', hbl', hparent', hhash'⟩ := hs.executed v' hv'
  cases hbl.symm.trans (hsame.trans hbl')
  cases hparent.symm.trans hparent'
  rw [hhash, hhash']

/-- The configuration stays the same, and the block verifier is executing nothing beyond the next block of the chain. -/
def SteadyExecution (sealers : List NodeID) (limit : Nat) (s : PBFTEngine) (e : Event × Ambient) :
    Prop :=
  FixedConfig sealers limit e.2 ∧ e.2.executingNumber ≤ s.blockChain.number + 1

instance (s : PBFTEngine) (e : Event × Ambient) : Decidable (SteadyExecution sealers limit s e) :=
  inferInstanceAs (Decidable (_ ∧ _))

/-- Whatever packets reach a node, it signs two different hashes at one height and view only in answer to two that carry
different blocks and valid signatures of the leader of that view over the hashes they name. -/
theorem signs_for_leader (E : Env) (hzero : ∀ h, E.headerHash h ≠ 0) (sealers : List NodeID)
    (limit : Nat) (amb : Ambient) (hamb : FixedConfig sealers limit amb) (cfg : NodeConfig)
    (backup : Option WireMsg) (es : List (Event × Ambient))
    (hrun : Along (step E) (SteadyExecution sealers limit) (start E amb cfg backup) es) :
    SignsForLeader E sealers (run (step E) (start E amb cfg backup) es).log := by
  have hstart : Signs E sealers (start E amb cfg backup) := by
    have hnone : signVotes (start E amb cfg backup).log = [] := by
      rw [start_log]
      rfl
    constructor <;>
    · intro v hv
      rw [hnone] at hv
      cases hv
  have hinv := invariant_run (fun s => Heights s ∧ Configured sealers limit s ∧ Signs E sealers s)
    (fun s e hcond hs => ⟨heights_step hs.1, configured_step hcond.1 hs.2.1, invariant_step (Signs E sealers)
        (fun _ _ => signs_smallStep hzero hcond.2 hs.1 hs.2.1) hs.2.2⟩)
    ⟨heights_start E amb cfg backup, configured_start hamb, hstart⟩ hrun
  exact hinv.2.2.forLeader

def newActions (s t : PBFTEngine) : List Action :=
  t.log.take (t.log.length - s.log.length)

def Event.ofNetwork : Event → Bool
  | .handleMsg _ | .handlePartiallyPrepare _ | .onReceiveMissedTxsResponse _ | .handleFutureBlock =>
    true
  | _ => false

def ExecutesSigned (E : Env) (s : PBFTEngine) (e : Event × Ambient) : Prop :=
  e.1.ofNetwork = true → ∀ x ∈ newActions s (step E s e), match x with
    | .execBlock r b => E.headerHash b.header = r.blockHash ∧ b.header.number = r.height
    | _ => True

instance (E : Env) (s : PBFTEngine) (e : Event × Ambient) : Decidable (ExecutesSigned E s e) := by
  unfold ExecutesSigned
  have : ∀ x : Action, Decidable (match x with
      | .execBlock r b => E.headerHash b.header = r.blockHash ∧ b.header.number = r.height
      | _ => True) := by
    intro x
    cases x <;> infer_instance
  infer_instance

/-- The block bytes of the proposals that pass the checks belong to the hash their leader has signed, missing transactions are
sent under that hash, and the chain has no block that has not been reported when a proposal is taken up. -/
structure Unaltered (E : Env) (s : PBFTEngine) (e : Event × Ambient) : Prop where
  packet : ∀ p r b, e.1 = .handleMsg p → p.packetId = .PrepareReqPacket → decodeToPrepare p = some r →
    s.isValidPrepare E e.2 r ≠ .INVALID → E.decodeBlock r.block = some b → E.headerHash b.header = r.blockHash
  hashes : ∀ p r pb, e.1 = .handlePartiallyPrepare p → decodeToPrepare p = some r →
    PartiallyBlock.decodeProposal E r.block = some pb → E.headerHash pb.header = r.blockHash
  missed : ∀ resp p, e.1 = .onReceiveMissedTxsResponse resp →
    s.reqCache.partiallyRawPrepare = some p ∨ s.reqCache.partiallyFuturePrepare = some p →
      (p.proposal.fillBlock E resp).isSome = true → resp.blockHash = p.blockHash
  reported : ∀ r, Takes E s e r → s.blockChain.number = s.highestBlock.number

def FutureSigned (E : Env) (s : PBFTEngine) : Prop :=
  ∀ r ∈ s.reqCache.futurePrepareCache, ∀ b, proposedBlock E r = some b → E.headerHash b.header = r.blockHash

lemma Origin.signed {r : PrepareReq} {bl : Block} (hs : FutureSigned E s₀)
    (hun : Unaltered E s₀ (e, amb)) (ho : Origin E amb s₀ e r) (hnot : e ≠ .shouldSeal)
    (hv : ∀ p, e = .handleMsg p → s₀.isValidPrepare E amb r ≠ .INVALID) (hbl : proposedBlock E r = some bl) : E.headerHash bl.header = r.blockHash := by
  cases ho with
  | packet hkind hdecode =>
    unfold proposedBlock at hbl
    rw [(decodeToPrepare_pBlock hdecode).1] at hbl
    exact hun.packet _ r bl rfl hkind hdecode (hv _ rfl) hbl
  | future hmem => exact hs r hmem bl hbl
  | reproposed => exact absurd rfl hnot
  | own =>
    cases hbl
    rfl
  | @hit p req pb hdecode hproposal hhit =>
    cases hbl
    exact hun.hashes p req pb rfl hdecode hproposal
  | @filled resp p pb hcached hfill =>
    cases hbl
    have hresp := hun.missed resp p rfl hcached (by rw [hfill]; rfl)
    unfold PartiallyBlock.fillBlock at hfill
    split at hfill
    · rename_i hmatch
      cases hfill
      exact hmatch.2.1.symm.trans hresp
    · cases hfill

lemma isValidPrepare_reproposed_ne_future {st : Stamp}
    (hlock : s₀.reqCache.committedPrepareCache.height = s₀.consensusBlockNumber) :
    s₀.isValidPrepare E amb (reproposed E s₀.keyPair s₀.view s₀.idx
      s₀.reqCache.committedPrepareCache st) ≠ .FUTURE := by
  have hnot : s₀.isFuturePrepare (reproposed E s₀.keyPair s₀.view s₀.idx
      s₀.reqCache.committedPrepareCache st) = false := by
    have hheight : (reproposed E s₀.keyPair s₀.view s₀.idx
      s₀.reqCache.committedPrepareCache st).height = s₀.consensusBlockNumber := hlock
    have hview : (reproposed E s₀.keyPair s₀.view s₀.idx
      s₀.reqCache.committedPrepareCache st).view = s₀.view := rfl
    unfold isFuturePrepare
    rw [hheight, hview]
    simp
  unfold isValidPrepare
  split_ifs <;> simp_all

lemma futureSigned_smallStep (hs₀ : FutureSigned E s₀) (hun : Unaltered E s₀ (e, amb))
    (h : SmallStep E amb s₀ e a b) (ha : FutureSigned E a) : FutureSigned E b := by
  have hsub : ∀ s : PBFTEngine, (∀ r ∈ s.reqCache.futurePrepareCache,
      r ∈ a.reqCache.futurePrepareCache) → FutureSigned E s :=
    fun s hmem r hr => ha r (hmem r hr)
  have hdel : ∀ (s : PBFTEngine) (c : PBFTReqCache) (header : BlockHeader),
      s.reqCache = c.delCache E header → c.futurePrepareCache = a.reqCache.futurePrepareCache →
      FutureSigned E s := by
    intro s c header hs hc
    refine hsub s fun r hr => ?_
    rw [hs, delCache_eq] at hr
    exact hc ▸ (mem_filter.mp hr).1
  have hcount : ∀ s : PBFTEngine, s.reqCache.futurePrepareCache = a.reqCache.futurePrepareCache →
      FutureSigned E (s.countAndVote E amb) := by
    intro s hs
    obtain ⟨m, -, hc | ⟨-, -, hc⟩⟩ := countAndVote_cases <;>
    · rw [hc]
      exact hsub _ fun r hr => hs ▸ hr
  cases h with
  | idle t lf nn fv tv pr pf fp rv lv hfp => exact hsub _ hfp
  | cacheFuture req ho hv =>
    intro r hr bl hbl
    rcases mem_cons.mp hr with rfl | hold
    · refine ho.signed hs₀ hun (fun he => ?_) (fun p he => ?_) hbl
      · rcases hv with hfuture | ⟨resp, hresp⟩
        · subst he
          cases ho with
          | reproposed hlock => exact isValidPrepare_reproposed_ne_future hlock hfuture
        · cases he.symm.trans hresp
      · rcases hv with hfuture | ⟨resp, hresp⟩
        · simp [hfuture]
        · cases he.symm.trans hresp
    · exact ha r hold bl hbl
  | accept => exact hsub _ fun r hr => by rw [accept_reqCache] at hr; exact hr
  | execute =>
    refine hsub _ fun r hr => ?_
    rw [noteExecution_accept_reqCache, accept_reqCache] at hr
    exact hr
  | prepare full req bl result context =>
    exact hcount (a.prepareFor E amb full req bl result context) (by rw [prepareFor_reqCache])
  | signVote p req => exact hcount { a with reqCache := a.reqCache.addSignReq req } rfl
  | save =>
    obtain ⟨m, m', -, -, hs | ⟨bl, -, -, -, -, hs⟩⟩ := checkAndSave_cases E a
    · rw [hs]
      exact ha
    rw [hs]
    rcases saveBlock_reqCache with hc | hc
    · exact hdel _ _ _ hc rfl
    · exact hsub _ fun r hr => by rw [hc] at hr; exact hr
  | viewChangeVote => exact addViewChangeReq_rec fun _ _ => ha
  | changeView =>
    exact hsub _ fun r hr => (mem_filter.mp (mem_filter.mp hr).1).1
  | report bl =>
    refine reportBlockWithoutLock_rec ha (fun _ => ?_) fun _ => ?_
    · exact hdel _ (a.reqCache.delInvalidViewChange E bl.header) bl.header rfl rfl
    · exact hdel _ a.reqCache bl.header rfl rfl
  | reset => exact resetConfig_rec fun _ => ha
  | sync => exact syncBlock_rec ha ha
  | garbage => exact hsub _ fun r hr => (mem_filter.mp hr).1
  | _ => exact ha

lemma exists_newActions {e : Event × Ambient} : ∀ x ∈ newActions s (step E s e), ∃ a, Logged E e.2 s e.1 a x := by
  have hinv := invariant_step (fun t => ∃ l, t.log = l ++ s.log ∧ ∀ x ∈ l, ∃ a, Logged E e.2 s e.1 a x)
    (fun a b h hab => by
      obtain ⟨l, hl, hall⟩ := hab
      obtain ⟨l', hl', hall'⟩ := h.logged
      refine ⟨l' ++ l, by rw [hl', hl, append_assoc], fun x hx => ?_⟩
      rcases mem_append.mp hx with hnew | hold
      · exact ⟨a, hall' x hnew⟩
      · exact hall x hold)
    (e := e) ⟨[], rfl, by simp⟩
  obtain ⟨l, hl, hall⟩ := hinv
  have hnew : newActions s (step E s e) = l := by
    unfold newActions
    rw [hl, length_append, Nat.add_sub_cancel, take_left']
    rfl
  rw [hnew]
  exact hall

lemma executesSigned_of_unaltered (hzero : ∀ h, E.headerHash h ≠ 0) {e : Event × Ambient} (hun : Unaltered E s e)
    (hheights : Heights s) (hfuture : FutureSigned E s) : ExecutesSigned E s e := by
  intro hnetwork x hx
  obtain ⟨a, hlogged⟩ := exists_newActions x hx
  cases x with
  | execBlock r =>
    obtain ⟨ht, -, result, context, hexec⟩ := hlogged.of_execBlock
    have hnot : e.1 ≠ .shouldSeal := by
      intro he
      rw [he] at hnetwork
      cases hnetwork
    have hnumber := hexec.number hzero
    have hheight := (validPrepare_of_isValidPrepare ht.2).height
    have hcons := hheights.consensus
    have hreported := hun.reported r ht
    exact ⟨ht.1.signed hfuture hun hnot (fun _ _ => by simp [ht.2]) hexec.proposed, by omega⟩
  | _ => trivial

/-- In every run in which no proposal was altered, the block a node executes for a proposal from the network is the one
whose hash and height the leader has signed. -/
theorem executesSigned_of_unaltered_run (E : Env) (hzero : ∀ h, E.headerHash h ≠ 0) (amb : Ambient)
    (cfg : NodeConfig) (backup : Option WireMsg) (es : List (Event × Ambient))
    (hrun : Along (step E) (Unaltered E) (start E amb cfg backup) es) :
    Along (step E) (ExecutesSigned E) (start E amb cfg backup) es := by
  have hstart : FutureSigned E (start E amb cfg backup) := by
    intro r hr
    rw [(fresh_start E amb cfg backup).futurePrepareCache] at hr
    cases hr
  refine hrun.of_invariant (fun s => Heights s ∧ FutureSigned E s) (fun s e hun hs => ?_)
    (fun s e hun hs => executesSigned_of_unaltered hzero hun hs.1 hs.2)
    ⟨heights_start E amb cfg backup, hstart⟩
  exact ⟨heights_step hs.1, invariant_step (FutureSigned E) (fun _ _ => futureSigned_smallStep hs.2 hun) hs.2⟩

end PBFTEngine

namespace Symbolic

open PBFTEngine

/-- Two proposals of one leader get two sign requests. -/
theorem not_signsOnce_of_two_proposals : ¬SignsOnce (run (step env) (node 12)
      [propose false (block 5), propose false (block 6)]).log := by
  decide +kernel

theorem signs_for_leader_of_two_proposals : SignsForLeader env sealers (run (step env) (node 12)
      [propose false (block 5), propose false (block 6)]).log :=
  signs_for_leader env headerHash_ne_zero sealers 1000 ambient fixedConfig_ambient
    { keyPair := 12, blockChain := chain } none _ (by decide +kernel)

/-- A relay puts the block of another proposal into the packet, and the node executes it. -/
theorem not_executesSigned_of_altered_block : ¬Along (step env) (ExecutesSigned env) (node 12)
      [deliver .PrepareReqPacket false (wire 0 0 ((block 5).hash env) 0 (some (env.encodeBlock (block 6))))] := by
  decide +kernel

lemma unaltered_deliver {kind : PacketType} {flag : Bool} {w : WireMsg}
    (hblock : (w.block.bind env.decodeBlock).all (fun b => env.headerHash b.header == w.blockHash) = true)
    (hreported : s.blockChain.number = s.highestBlock.number) : Unaltered env s (deliver kind flag w) := by
  refine ⟨fun p r b hp hkind hdecode _ hb => ?_, fun p r pb hp => (nomatch hp),
    fun resp p hp => (nomatch hp), fun r _ => hreported⟩
  obtain ⟨-, hhash, hproposed⟩ := decodeToPrepare_deliver hp hdecode
  have hdecoded : proposedBlock env r = some b := by
    rw [proposedBlock, (decodeToPrepare_pBlock hdecode).1]
    exact hb
  rw [← hproposed, hdecoded] at hblock
  exact (beq_iff_eq.mp hblock).trans hhash.symm

theorem executesSigned_of_unaltered_run_of_proposal :
    Along (step env) (ExecutesSigned env) (node 12) [propose false (block 5)] :=
  executesSigned_of_unaltered_run env headerHash_ne_zero ambient { keyPair := 12, blockChain := chain } none _
    ⟨unaltered_deliver (by decide +kernel) (by decide +kernel), trivial⟩

end Symbolic

end FiscoBcos
