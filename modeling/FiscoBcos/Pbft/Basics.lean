import Mathlib.Data.List.GetD
import FiscoBcos.Chain.Symbolic
import FiscoBcos.Pbft.StepSpecs

/-!
# Invariants of every run

What holds of an engine after `initPBFTEnv` whatever it is sent.
-/

namespace FiscoBcos

open PBFTEngine BucketMap Option BlockChain

def Action.quiet : Action → Bool
  | .broadcastSignReq .. | .broadcastCommitReq .. | .updateCommittedPrepare .. => false
  | _ => true

namespace PBFTEngine

/-- What a node is started with. -/
structure NodeConfig where
  keyPair : NodeID
  omitEmptyBlock : Bool := true
  allowFutureBlocks : Bool := true
  enablePrepareWithTxsHash : Bool := false
  supportConsensusTimeAdjust : Bool := false
  blockChain : BlockChain

def start (E : Env) (amb : Ambient) (cfg : NodeConfig) (backup : Option WireMsg) : PBFTEngine :=
  initPBFTEnv E amb
    { keyPair := cfg.keyPair
      omitEmptyBlock := cfg.omitEmptyBlock
      allowFutureBlocks := cfg.allowFutureBlocks
      enablePrepareWithTxsHash := cfg.enablePrepareWithTxsHash
      supportConsensusTimeAdjust := cfg.supportConsensusTimeAdjust
      blockChain := cfg.blockChain }
    backup

/-- The chain names these sealers and this limit. -/
structure FixedConfig (sealers : List NodeID) (limit : Nat) (amb : Ambient) : Prop where
  nonempty : amb.sealerList ≠ []
  sealers : amb.sealerList.insertionSort (· ≤ ·) = sealers
  limit : amb.txCountLimit = limit

instance (sealers : List NodeID) (limit : Nat) (amb : Ambient) :
    Decidable (FixedConfig sealers limit amb) :=
  decidable_of_iff (amb.sealerList ≠ [] ∧ amb.sealerList.insertionSort (· ≤ ·) = sealers ∧
      amb.txCountLimit = limit)
    ⟨fun h => ⟨h.1, h.2.1, h.2.2⟩, fun h => ⟨h.1, h.2, h.3⟩⟩

structure Heights (s : PBFTEngine) : Prop where
  consensus : s.consensusBlockNumber = s.highestBlock.number + 1
  nonneg : 0 ≤ s.highestBlock.number
  reported : s.highestBlock.number ≤ s.blockChain.number

structure Prepared (E : Env) (s : PBFTEngine) : Prop where
  cleared : s.reqCache.proposal = none →
    s.reqCache.prepareCache.view = MAXVIEW ∧ s.reqCache.prepareCache.height = -1
  height : ∀ p, s.reqCache.proposal = some p → s.reqCache.prepareCache.height = p.height
  view : ∀ p, s.reqCache.proposal = some p → s.reqCache.prepareCache.view = p.view
  block : ∀ p, s.reqCache.proposal = some p →
    ∃ b, s.reqCache.prepareCache.pBlock = some b ∧
      E.headerHash b.header = s.reqCache.prepareCache.blockHash

/-- The proposal in the caches is cleared, or left as it is up to the signatures in its block. -/
inductive Kept (c c' : PBFTReqCache) : Prop where
  | cleared (r : PrepareReq) (hcache : c'.prepareCache = r.clear) (hproposal : c'.proposal = none)
  | same (o : Option Block) (hcache : c'.prepareCache = { c.prepareCache with pBlock := o })
      (hblock : o.map (fun b => (b.header, b.transactions)) =
        c.prepareCache.pBlock.map fun b => (b.header, b.transactions))
      (hproposal : c'.proposal = c.proposal)

/-- A vote cache in which requests have been checked or dropped, or a request with `P` was filed. -/
inductive Refiled (check : PBFTMsg → Bool) (P : PBFTMsg → Prop) (m : ReqMap) : ReqMap → Prop where
  | fewer {m₁ m' : ReqMap} (hre : Recounted check m m₁) (hsub : m'.Sub m₁) : Refiled check P m m'
  | more (r : PBFTMsg) (hnew : m.contains r.blockHash r.sig = false) (hr : P r) : Refiled check P m (m.add r)

inductive EntersSign (E : Env) (amb : Ambient) (s₀ : PBFTEngine) (e : Event) (a b : PBFTEngine) :
    PBFTMsg → Prop where
  | own {req : PrepareReq} {bl result : Block} {context : Bool} (ht : Takes E s₀ (e, amb) req)
      (hready : Ready s₀ a) (hexec : Execution E amb s₀ req bl result context)
      (hlog : .broadcastSignReq ((req.executed E a.keyPair result context amb.executedStamp).vote E
        a.keyPair a.idx amb.signStamp) req ∈ b.log) :
      EntersSign E amb s₀ e a b ((req.executed E a.keyPair result context amb.executedStamp).vote E a.keyPair a.idx
          amb.signStamp)
  | checked {p : PBFTMsgPacket} {req : SignReq} (hs : a = s₀) (he : e = .handleMsg p)
      (hkind : p.packetId = .SignReqPacket) (hdecode : decodeToMsg p = some req)
      (hv : a.checkReq E amb req = .VALID) : EntersSign E amb s₀ e a b req
  | future {p : PBFTMsgPacket} {req : SignReq} (hs : a = s₀) (he : e = .handleMsg p)
      (hkind : p.packetId = .SignReqPacket) (hdecode : decodeToMsg p = some req)
      (hv : a.checkReq E amb req = .FUTURE) : EntersSign E amb s₀ e a b (asFuture req)

inductive EntersCommit (E : Env) (amb : Ambient) (s₀ : PBFTEngine) (e : Event) (a b : PBFTEngine) :
    PBFTMsg → Prop where
  | own {t : PBFTEngine} (hframe : Frame a t) (hidx : a.idx ≠ MAXIDX) (hview : t.reqCache.prepareCache.view = t.view)
      (hlog : .broadcastCommitReq (t.ownVote E amb.commitStamp) t.reqCache.proposal ∈ b.log) :
      EntersCommit E amb s₀ e a b (t.ownVote E amb.commitStamp)
  | checked {p : PBFTMsgPacket} {req : CommitReq} (hs : a = s₀) (he : e = .handleMsg p)
      (hkind : p.packetId = .CommitReqPacket) (hdecode : decodeToMsg p = some req)
      (hv : a.checkReq E amb req = .VALID) : EntersCommit E amb s₀ e a b req
  | future {p : PBFTMsgPacket} {req : CommitReq} (hs : a = s₀) (he : e = .handleMsg p)
      (hkind : p.packetId = .CommitReqPacket) (hdecode : decodeToMsg p = some req)
      (hv : a.checkReq E amb req = .FUTURE) : EntersCommit E amb s₀ e a b (asFuture req)

/-- The log has grown by actions that neither vote nor lock. -/
def QuietAfter (log log' : List Action) : Prop :=
  ∃ l, log' = l ++ log ∧ ∀ x ∈ l, x.quiet = true

lemma QuietAfter.refl {log : List Action} : QuietAfter log log :=
  ⟨[], rfl, by simp⟩

lemma QuietAfter.cons {log : List Action} {x : Action} (hx : x.quiet = true) : QuietAfter log (x :: log) :=
  ⟨[x], rfl, by simpa using hx⟩

/-- What a small step does to the proposal in the caches and its votes: it counts the votes, for a new proposal or with
a new sign request, or it casts none and keeps the lock. Only a partial proposal completed on its arrival leaves the
proposal with another raw prepare. -/
inductive Effect (E : Env) (amb : Ambient) (s₀ : PBFTEngine) (e : Event) (a : PBFTEngine) : PBFTEngine → Prop where
  | prepare (full : Bool) (req : PrepareReq) (bl result : Block) (context : Bool)
      (ht : Takes E s₀ (e, amb) req) (hready : Ready s₀ a) (hexec : Execution E amb s₀ req bl result context)
      (hcontext : context = true ∨ bl.transactions = []) :
      Effect E amb s₀ e a ((a.prepareFor E amb full req bl result context).countAndVote E amb)
  | signVote (req : SignReq) (hs : a = s₀) {p : PBFTMsgPacket} (hidx : a.idx ≠ MAXIDX) (he : e = .handleMsg p)
      (hkind : p.packetId = .SignReqPacket) (hdecode : decodeToMsg p = some req)
      (hnew : a.reqCache.isExistSign req = false) (hv : a.checkReq E amb req = .VALID) :
      Effect E amb s₀ e a ({ a with reqCache := a.reqCache.addSignReq req }.countAndVote E amb)
  | quiet {b : PBFTEngine} (hcons : a.consensusBlockNumber ≤ b.consensusBlockNumber)
      (hlock : b.reqCache.committedPrepareCache = a.reqCache.committedPrepareCache)
      (hlog : QuietAfter a.log b.log) (hkept : Kept a.reqCache b.reqCache)
      (hraw : (∀ p r, e = .handlePartiallyPrepare p → Takes E s₀ (e, amb) r →
          s₀.reqCache.proposal = none ∨ Voted E amb s₀ r) →
        b.reqCache.proposal = none ∨ b.reqCache.rawPrepareCache = a.reqCache.rawPrepareCache)
      (hview : b.view = a.view ∨ b.view = 0 ∨ b.reqCache.proposal = none)
      (hsigns : Refiled (checkSign E a.sealerList) (fun r => EntersSign E amb s₀ e a b r ∧
        a.reqCache.prepareCache.blockHash ≠ r.blockHash) a.reqCache.signCache b.reqCache.signCache)
      (hcommits : Refiled (checkSign E a.sealerList) (fun r => EntersCommit E amb s₀ e a b r ∧
        (a.reqCache.prepareCache.blockHash = r.blockHash → r.view = a.reqCache.prepareCache.view))
          a.reqCache.commitCache b.reqCache.commitCache) : Effect E amb s₀ e a b

variable {E : Env} {amb : Ambient} {s₀ a b : PBFTEngine} {e : Event}

variable {sealers : List NodeID} {s : PBFTEngine} {limit : Nat}

lemma lt_length_of_checkSign {r : PBFTMsg} (h : checkSign E sealers r = true) : r.idx < sealers.length := by
  by_contra hge
  have hzero : getSealerByIndex sealers r.idx = 0 := List.getD_eq_default _ _ (not_lt.mp hge)
  unfold checkSign at h
  rw [hzero] at h
  cases h

lemma Heights.of_frame (ha : Heights a) (h : Frame a b) : Heights b :=
  ⟨by rw [h.consensusBlockNumber, h.highestBlock]; exact ha.consensus,
    by rw [h.highestBlock]; exact ha.nonneg,
    by rw [h.highestBlock, h.blockChain]; exact ha.reported⟩

lemma heights_smallStep (h : SmallStep E amb s₀ e a b) (ha : Heights a) : Heights b := by
  cases h with
  | prepare full req bl result context =>
    exact ha.of_frame ((frame_prepareFor a full req bl result context).trans frame_countAndVote)
  | signVote => exact ha.of_frame (frame_reqCache.trans frame_countAndVote)
  | save =>
    have hs := ha.of_frame (frame_checkAndSave (E := E) a)
    exact ⟨hs.consensus, hs.nonneg, hs.reported.trans (number_le_checkAndSave a)⟩
  | report bl hb =>
    have hnum := (number_of_getBlockByNumber hb).2
    have hpos := nonneg_of_getBlockByNumber hb
    rcases reportBlockWithoutLock_cases with ⟨hr, -⟩ | ⟨_, -, htaken, ⟨-, hr⟩ | ⟨hlow, hr⟩⟩
    · rw [hr]
      exact ha.of_frame frame_note
    · rw [hr]
      exact ⟨rfl, hpos, hnum⟩
    · rw [hr]
      -- only the genesis block can be reported again
      have h1 := ha.consensus
      have h3 := ha.reported
      exact ⟨by change a.consensusBlockNumber = bl.header.number + 1; omega, hpos, hnum⟩
  | reset => exact resetConfig_rec fun _ => ⟨ha.consensus, ha.nonneg, ha.reported⟩
  | sync bl =>
    have hnum := number_le_commitBlock E a.blockChain bl
    unfold syncBlock
    dsimp only
    split
    · exact ⟨ha.consensus, ha.nonneg, ha.reported.trans hnum⟩
    · exact ha
  | _ => exact ⟨ha.consensus, ha.nonneg, ha.reported⟩

lemma Kept.delCache {c c' : PBFTReqCache} {header : BlockHeader} (h : Kept c c') : Kept c (c'.delCache E header) := by
  rcases delCache_prepareCache E c' header with ⟨hcache, hproposal⟩ | ⟨hcache, hproposal⟩
  · cases h with
    | cleared r h1 h2 => exact .cleared r (hcache.trans h1) (hproposal.trans h2)
    | same o h1 hblock h2 => exact .same o (hcache.trans h1) hblock (hproposal.trans h2)
  · exact .cleared _ hcache hproposal

section

variable {r : PrepareReq} {bl result : Block}

lemma not_voted_of_failure (hfail : ∀ b result context, Execution E amb s₀ r b result context →
      E.verifySenders b.transactions = false) : ¬Voted E amb s₀ r := by
  intro hvoted
  obtain ⟨b', result, context, hexec, hsenders, -⟩ := hvoted
  rw [hfail b' result context hexec] at hsenders
  cases hsenders

lemma not_voted_of_execution (hexec : Execution E amb s₀ r bl result false) (htx : bl.transactions ≠ []) :
    ¬Voted E amb s₀ r := by
  rintro ⟨b', result', context', hexec', -, hcontext⟩
  cases hexec'.proposed.symm.trans hexec.proposed
  have hfalse : context' = false := congrArg Prod.snd (hexec'.result.symm.trans hexec.result)
  rcases hcontext with htrue | hnil
  · rw [hfalse] at htrue
    cases htrue
  · exact htx hnil

end

lemma Refiled.refl {check : PBFTMsg → Bool} {P : PBFTMsg → Prop} {m : ReqMap} : Refiled check P m m :=
  .fewer (.refl m) (.refl m)

lemma checkReq_valid {req : PBFTMsg} (h : s.checkReq E amb req = .VALID) :
    req.blockHash = s.reqCache.prepareCache.blockHash ∧ req.idx ≠ s.idx ∧
      req.view = s.reqCache.prepareCache.view ∧ checkSign E s.sealerList req = true := by
  unfold checkReq at h
  split_ifs at h with hsync hhash hfuture hidx hview hsign
  exact ⟨(not_not.mp hhash).symm, hidx, (not_not.mp hview).symm, by simpa using hsign⟩

lemma checkReq_future {req : PBFTMsg} (h : s.checkReq E amb req = .FUTURE) :
    s.reqCache.prepareCache.blockHash ≠ req.blockHash := by
  intro hhash
  unfold checkReq at h
  rw [if_neg (not_not.mpr hhash)] at h
  split_ifs at h

lemma effect_checkAndSave : Effect E amb s₀ e a (a.checkAndSave E) := by
  obtain ⟨m, m', hre, hre', hc | ⟨bl, -, -, hbl, -, hc⟩⟩ := checkAndSave_cases E a
  · rw [hc]
    exact .quiet le_rfl rfl .refl (.same _ rfl rfl rfl) (fun _ => .inr rfl) (.inl rfl) (.fewer hre (.refl _))
      (.fewer hre' (.refl _))
  -- the block in the prepare cache gets its signature list
  let t := (a.withSigns m).withCommits m'
  have hsigned : Kept a.reqCache (signedCache t.reqCache (t.signedBlock bl)) := by
    refine .same _ rfl ?_ rfl
    rw [hbl, map_some, map_some, signedBlock_header, signedBlock_transactions]
  rw [hc, saveBlock_eq]
  by_cases hok : (t.blockChain.commitBlock E (t.signedBlock bl)).1 = .OK
  · rw [if_pos hok, delCache_eq]
    exact .quiet le_rfl rfl (.cons rfl) (delCache_eq E _ _ ▸ hsigned.delCache) (fun _ => .inr rfl) (.inl rfl)
      (.fewer hre sub_erase) (.fewer hre' sub_erase)
  · rw [if_neg hok]
    exact .quiet le_rfl rfl (.cons rfl) hsigned (fun _ => .inr rfl) (.inl rfl) (.fewer hre (.refl _))
      (.fewer hre' (.refl _))

lemma effect_report {bl : Block} : Effect E amb s₀ e a (a.reportBlockWithoutLock E amb bl) := by
  rcases reportBlockWithoutLock_cases with ⟨hr, -⟩ | ⟨_, -, -, ⟨hnew, hr⟩ | ⟨-, hr⟩⟩
  · rw [hr]
    exact .quiet le_rfl rfl (.cons rfl) (.same _ rfl rfl rfl) (fun _ => .inr rfl) (.inl rfl) .refl .refl
  · have hkept : Kept a.reqCache (a.reqCache.delInvalidViewChange E bl.header) := .same _ rfl rfl rfl
    rw [hr, reportNew, delCache_eq]
    exact .quiet (hnew.trans (Int.le_add_one le_rfl)) rfl (.cons rfl) (delCache_eq E _ _ ▸ hkept.delCache)
      (fun _ => .inr rfl) (.inr (.inl rfl)) (.fewer (.refl _) sub_erase) (.fewer (.refl _) sub_erase)
  · have hkept : Kept a.reqCache a.reqCache := .same _ rfl rfl rfl
    rw [hr, reportAgain, delCache_eq]
    exact .quiet le_rfl rfl (.cons rfl) (delCache_eq E _ _ ▸ hkept.delCache) (fun _ => .inr rfl) (.inl rfl)
      (.fewer (.refl _) sub_erase) (.fewer (.refl _) sub_erase)

lemma SmallStep.effect (h : SmallStep E amb s₀ e a b) : Effect E amb s₀ e a b := by
  have hcompleted {req : PrepareReq} (ht : Takes E s₀ (e, amb) req) (hready : Ready s₀ a)
      (hpartly : ∃ p, e = .handlePartiallyPrepare p) (hnot : ¬Voted E amb s₀ req)
      (h : ∀ p r, e = .handlePartiallyPrepare p → Takes E s₀ (e, amb) r →
        s₀.reqCache.proposal = none ∨ Voted E amb s₀ r) : a.reqCache.proposal = none := by
    obtain ⟨p, hp⟩ := hpartly
    rw [hready.reqCache]
    exact (h p req hp ht).resolve_right hnot
  cases h with
  | prepare full req bl result context ho hv hready hfull hexec hcontext =>
    exact .prepare full req bl result context ⟨ho, hv⟩ hready hexec hcontext
  | signVote p req hs hidx he hkind hdecode hnew hcons hv => exact .signVote req hs hidx he hkind hdecode hnew hv
  | futureSign p req hs he hkind hdecode hnew hcons hv =>
    exact .quiet le_rfl rfl .refl (.same _ rfl rfl rfl) (fun _ => .inr rfl) (.inl rfl)
      (.more (asFuture req) hnew ⟨.future hs he hkind hdecode hv, checkReq_future hv⟩) .refl
  | commitVote p req hs he hkind hdecode hnew hcons hv =>
    exact .quiet le_rfl rfl .refl (.same _ rfl rfl rfl) (fun _ => .inr rfl) (.inl rfl) .refl
      (.more req hnew ⟨.checked hs he hkind hdecode hv, fun _ => (checkReq_valid hv).2.2.1⟩)
  | futureCommit p req hs he hkind hdecode hnew hcons hv =>
    exact .quiet le_rfl rfl .refl (.same _ rfl rfl rfl) (fun _ => .inr rfl) (.inl rfl) .refl
      (.more (asFuture req) hnew ⟨.future hs he hkind hdecode hv, fun h => absurd h (checkReq_future hv)⟩)
  | propose | sendViewChange =>
    exact .quiet le_rfl rfl (.cons rfl) (.same _ rfl rfl rfl) (fun _ => .inr rfl) (.inl rfl) .refl .refl
  | accept full req ho hv hready hfull hfail =>
    cases full with
    | true => exact .quiet le_rfl rfl .refl (.cleared _ rfl rfl) (fun _ => .inl rfl) (.inr (.inr rfl)) .refl .refl
    | false =>
      refine .quiet le_rfl rfl .refl (.same _ rfl rfl rfl) (fun h => .inl ?_) (.inl rfl) .refl .refl
      exact hcompleted ⟨ho, hv⟩ hready (hfull rfl) (not_voted_of_failure hfail) h
  | execute full req bl result ho hv hready hfull hexec htx =>
    cases full with
    | true => exact .quiet le_rfl rfl (.cons rfl) (.cleared _ rfl rfl) (fun _ => .inl rfl) (.inr (.inr rfl)) .refl .refl
    | false =>
      refine .quiet le_rfl rfl (.cons rfl) (.same _ rfl rfl rfl) (fun h => .inl ?_) (.inl rfl) .refl .refl
      exact hcompleted ⟨ho, hv⟩ hready (hfull rfl) (not_voted_of_execution hexec htx) h
  | save => exact effect_checkAndSave
  | viewChangeVote =>
    exact addViewChangeReq_rec fun _ _ =>
      .quiet le_rfl rfl .refl (.same _ rfl rfl rfl) (fun _ => .inr rfl) (.inl rfl) .refl .refl
  | changeView =>
    exact .quiet le_rfl rfl (.cons rfl) (.cleared _ rfl rfl) (fun _ => .inl rfl) (.inr (.inr rfl))
      (.fewer (.refl _) (sub_restrict.trans sub_filter)) (.fewer (.refl _) sub_filter)
  | report bl => exact effect_report
  | reset =>
    exact resetConfig_rec fun _ =>
      .quiet le_rfl rfl .refl (.same _ rfl rfl rfl) (fun _ => .inr rfl) (.inl rfl) .refl .refl
  | sync =>
    refine syncBlock_rec ?_ ?_
    · exact .quiet le_rfl rfl .refl (.same _ rfl rfl rfl) (fun _ => .inr rfl) (.inl rfl) .refl .refl
    · exact .quiet le_rfl rfl (.cons rfl) (.same _ rfl rfl rfl) (fun _ => .inr rfl) (.inl rfl) .refl .refl
  | garbage =>
    exact .quiet le_rfl rfl .refl (.same _ rfl rfl rfl) (fun _ => .inr rfl) (.inl rfl)
      (.fewer (.refl _) sub_prune) (.fewer (.refl _) sub_prune)
  | _ => exact .quiet le_rfl rfl .refl (.same _ rfl rfl rfl) (fun _ => .inr rfl) (.inl rfl) .refl .refl

lemma mem_log_of_quiet {x : Action} (hlog : QuietAfter a.log b.log)
    (hmem : x ∈ b.log) (hx : x.quiet = false) : x ∈ a.log := by
  obtain ⟨l, hl, hquiet⟩ := hlog
  rw [hl] at hmem
  rcases List.mem_append.mp hmem with hnew | hold
  · cases hx.symm.trans (hquiet x hnew)
  · exact hold

lemma Prepared.proposal_ne_none (h : Prepared E s)
    (hview : s.reqCache.prepareCache.view = s.view) (hmax : s.view ≠ MAXVIEW) : s.reqCache.proposal ≠ none :=
  fun hnone => hmax (hview.symm.trans (h.cleared hnone).1)

lemma Prepared.proposal_ne_none_of_lt (h : Prepared E s) (hheights : Heights s)
    (hheight : s.highestBlock.number < s.reqCache.prepareCache.height) : s.reqCache.proposal ≠ none := by
  intro hnone
  have hnonneg := hheights.nonneg
  have hcleared := (h.cleared hnone).2
  omega

lemma prepared_of_clear {r : PrepareReq} (hcache : s.reqCache.prepareCache = r.clear)
    (hproposal : s.reqCache.proposal = none) : Prepared E s := by
  refine ⟨fun _ => by rw [hcache]; exact ⟨rfl, rfl⟩, ?_, ?_, ?_⟩ <;>
  · intro p hsome
    rw [hproposal] at hsome
    cases hsome

lemma Prepared.kept (ha : Prepared E a) (h : Kept a.reqCache b.reqCache) : Prepared E b := by
  cases h with
  | cleared r hcache hproposal => exact prepared_of_clear hcache hproposal
  | same o hcache hblock hproposal =>
    have hview : b.reqCache.prepareCache.view = a.reqCache.prepareCache.view := by rw [hcache]
    have hheight : b.reqCache.prepareCache.height = a.reqCache.prepareCache.height := by rw [hcache]
    refine ⟨?_, ?_, ?_, fun p hsome => ?_⟩
    · rw [hview, hheight, hproposal]
      exact ha.cleared
    · rw [hheight, hproposal]
      exact ha.height
    · rw [hview, hproposal]
      exact ha.view
    · obtain ⟨bl, hbl, hhash⟩ := ha.block p (hproposal ▸ hsome)
      rw [hbl] at hblock
      obtain ⟨bl', rfl, heq⟩ := map_eq_some_iff.mp hblock
      rw [hcache]
      exact ⟨bl', rfl, by rw [(Prod.mk.inj heq).1]; exact hhash⟩

lemma Prepared.congr {c c' : PBFTEngine} (hc : Prepared E c)
    (hcache : c'.reqCache.prepareCache = c.reqCache.prepareCache)
    (hproposal : c'.reqCache.proposal = c.reqCache.proposal) : Prepared E c' :=
  hc.kept (.same _ hcache rfl hproposal)

lemma Prepared.countAndVote (hs : Prepared E s) : Prepared E (s.countAndVote E amb) := by
  obtain ⟨m, -, hc | ⟨-, -, hc⟩⟩ := countAndVote_cases
  · rw [hc]
    exact hs.congr rfl rfl
  · rw [hc]
    exact hs.congr (by rw [lockAndVote_reqCache, withSigns_reqCache])
      (by rw [lockAndVote_reqCache, withSigns_reqCache])

lemma prepared_prepareFor {full : Bool} {req : PrepareReq} {bl result : Block}
    {context : Bool} : Prepared E (s.prepareFor E amb full req bl result context) := by
  have hproposal := congrArg PBFTReqCache.proposal
    (prepareFor_reqCache E amb s full req bl result context)
  refine ⟨fun hnone => ?_, ?_, ?_, ?_⟩
  · cases hproposal.symm.trans hnone
  all_goals
    intro p hsome
    cases hproposal.symm.trans hsome
  · rfl
  · rfl
  · exact ⟨result, rfl, rfl⟩

lemma prepared_smallStep (h : SmallStep E amb s₀ e a b) (ha : Prepared E a) : Prepared E b := by
  cases h.effect with
  | prepare => exact prepared_prepareFor.countAndVote
  | signVote req =>
    have hadd : Prepared E { a with reqCache := a.reqCache.addSignReq req } := ha.congr rfl rfl
    exact hadd.countAndVote
  | quiet _ _ _ hkept => exact ha.kept hkept

lemma Configured.of_frame (ha : Configured sealers limit a) (h : Frame a b) : Configured sealers limit b := by
  obtain ⟨h1, h2, h3, h4, h5, h6⟩ := ha
  exact ⟨by rw [h.sealerList, h1], by rw [h.nodeNum, h2], by rw [h.f, h.nodeNum, h3],
    by rw [h.idx, h.keyPair, h4], by rw [h.cfgErr, h.idx, h5], by rw [h.maxBlockTransactions, h6]⟩

lemma Configured.minValidNodes (h : Configured sealers limit s) :
    s.minValidNodes = sealers.length % (MAXIDX + 1) - (sealers.length % (MAXIDX + 1) - 1) / 3 := by
  unfold PBFTEngine.minValidNodes
  rw [h.f, h.nodeNum]

lemma Configured.minValidNodes_bounds (h : Configured sealers limit s)
    (hsize : 1 ≤ sealers.length ∧ sealers.length ≤ MAXIDX) : 1 ≤ s.minValidNodes ∧ s.minValidNodes ≤ MAXIDX := by
  rw [h.minValidNodes, Nat.mod_eq_of_lt (by omega)]
  omega

lemma FixedConfig.length_pos (h : FixedConfig sealers limit amb) : 1 ≤ sealers.length := by
  rw [← h.sealers, List.length_insertionSort]
  exact List.length_pos_iff.mpr h.nonempty

lemma configured_smallStep (hamb : FixedConfig sealers limit amb)
    (h : SmallStep E amb s₀ e a b) (ha : Configured sealers limit a) : Configured sealers limit b := by
  obtain ⟨hne, hsealers, hlimit⟩ := hamb
  cases h with
  | prepare full req bl result context =>
    exact ha.of_frame ((frame_prepareFor a full req bl result context).trans frame_countAndVote)
  | signVote => exact ha.of_frame (frame_reqCache.trans frame_countAndVote)
  | save =>
    have hc := ha.of_frame (frame_checkAndSave (E := E) a)
    exact ⟨hc.sealerList, hc.nodeNum, hc.f, hc.idx, hc.cfgErr, hc.maxBlockTransactions⟩
  | report =>
    rcases reportBlockWithoutLock_cases with ⟨hr, -⟩ | ⟨_, hconf, -⟩
    · rw [hr]
      exact ha.of_frame frame_note
    · rw [← hsealers, ← hlimit]
      exact hconf hne
  | reset =>
    obtain ⟨_, -, hconf⟩ := resetConfig_cases amb a
    rw [← hsealers, ← hlimit]
    exact hconf hne
  | sync => exact syncBlock_rec ha ⟨ha.sealerList, ha.nodeNum, ha.f, ha.idx, ha.cfgErr, ha.maxBlockTransactions⟩
  | _ => exact ⟨ha.sealerList, ha.nodeNum, ha.f, ha.idx, ha.cfgErr, ha.maxBlockTransactions⟩

structure Fresh (s : PBFTEngine) : Prop where
  proposal : s.reqCache.proposal = none
  prepareCache : s.reqCache.prepareCache.view = MAXVIEW ∧ s.reqCache.prepareCache.height = -1
  rawPrepareCache : s.reqCache.rawPrepareCache = {}
  signCache : ∀ h, s.reqCache.signCache.bucket h = []
  commitCache : ∀ h, s.reqCache.commitCache.bucket h = []
  recvViewChangeReq : s.reqCache.recvViewChangeReq = []
  latestViewChangeReqCache : s.reqCache.latestViewChangeReqCache = []
  futurePrepareCache : s.reqCache.futurePrepareCache = []
  partiallyRawPrepare : s.reqCache.partiallyRawPrepare = none
  partiallyFuturePrepare : s.reqCache.partiallyFuturePrepare = none

section

variable (E : Env) (amb : Ambient) (cfg : NodeConfig) (backup : Option WireMsg)

lemma start_cases : ∃ c : Config, start E amb cfg backup =
        { keyPair := cfg.keyPair
          omitEmptyBlock := cfg.omitEmptyBlock
          allowFutureBlocks := cfg.allowFutureBlocks
          enablePrepareWithTxsHash := cfg.enablePrepareWithTxsHash
          supportConsensusTimeAdjust := cfg.supportConsensusTimeAdjust
          blockChain := cfg.blockChain
          highestBlock := cfg.blockChain.head.header
          consensusBlockNumber := cfg.blockChain.number + 1
          maxBlockTransactions := c.limit, sealerList := c.sealers, nodeNum := c.nodeNum, f := c.f
          cfgErr := c.cfgErr, idx := c.idx, timeManager := c.timeManager
          log := [.reportBlock cfg.blockChain.number]
          reqCache :=
            { ({} : PBFTReqCache).delCache E cfg.blockChain.head.header with
              committedPrepareCache := (reloadMsg backup).getD {} } } ∧
      (amb.sealerList ≠ [] →
        Configured (amb.sealerList.insertionSort (· ≤ ·)) amb.txCountLimit (start E amb cfg backup)) := by
  have hhead := cfg.blockChain.head_number
  have hpos := cfg.blockChain.number_nonneg
  unfold start initPBFTEnv
  dsimp only
  generalize hs : ({
    keyPair := cfg.keyPair
    omitEmptyBlock := cfg.omitEmptyBlock
    allowFutureBlocks := cfg.allowFutureBlocks
    enablePrepareWithTxsHash := cfg.enablePrepareWithTxsHash
    supportConsensusTimeAdjust := cfg.supportConsensusTimeAdjust
    blockChain := cfg.blockChain
    timeManager := _ } : PBFTEngine) = s
  have hchain : s.blockChain = cfg.blockChain := by rw [← hs]
  have hcons : s.consensusBlockNumber = 0 := by rw [← hs]
  have hhigh : s.highestBlock.number = 0 := by rw [← hs]
  rcases reportBlockWithoutLock_cases with
    ⟨-, hskip⟩ | ⟨c, hconf, -, ⟨-, hr⟩ | ⟨hlow, -⟩⟩
  · rw [hchain, hhigh, hhead] at hskip
    omega
  · rw [reportNew, hhead] at hr
    subst hs
    cases hb : reloadMsg backup with
    | none =>
      refine ⟨c, ?_, hconf⟩
      rw [delCache_eq] at hr ⊢
      exact hr
    | some lock =>
      refine ⟨c, ?_, ?_⟩
      · exact congrArg (fun r : PBFTEngine => { r with reqCache := { r.reqCache with
          committedPrepareCache := lock } }) hr
      · intro hne
        have hc := hconf hne
        exact ⟨hc.sealerList, hc.nodeNum, hc.f, hc.idx, hc.cfgErr, hc.maxBlockTransactions⟩
  · rw [hcons, hhead] at hlow
    omega

lemma fresh_start : Fresh (start E amb cfg backup) := by
  obtain ⟨_, h, -⟩ := start_cases E amb cfg backup
  rw [h, delCache_eq]
  have hcache : ((({} : PBFTReqCache).delCache E cfg.blockChain.head.header).prepareCache.view =
      MAXVIEW ∧ (({} : PBFTReqCache).delCache E cfg.blockChain.head.header).prepareCache.height = -1) ∧
        (({} : PBFTReqCache).delCache E cfg.blockChain.head.header).proposal = none := by
    rcases delCache_prepareCache E {} cfg.blockChain.head.header with ⟨h1, h2⟩ | ⟨h1, h2⟩ <;>
    · rw [h1, h2]
      exact ⟨⟨rfl, rfl⟩, rfl⟩
  have hempty : ∀ k, (empty.erase (E.headerHash cfg.blockChain.head.header) :
      ReqMap).bucket k = [] := by
    intro k
    rw [bucket_erase, bucket_empty, ite_self]
  exact ⟨hcache.2, hcache.1, rfl, hempty, hempty, rfl, rfl, rfl, rfl, rfl⟩

lemma heights_start : Heights (start E amb cfg backup) := by
  obtain ⟨_, h, -⟩ := start_cases E amb cfg backup
  have hhead := cfg.blockChain.head_number
  have hpos := cfg.blockChain.number_nonneg
  rw [h]
  exact ⟨by rw [hhead], by rw [hhead]; exact hpos, hhead.le⟩

lemma start_log : (start E amb cfg backup).log = [.reportBlock cfg.blockChain.number] := by
  obtain ⟨_, h, -⟩ := start_cases E amb cfg backup
  rw [h]

lemma start_blockChain : (start E amb cfg backup).blockChain = cfg.blockChain ∧
      (start E amb cfg backup).consensusBlockNumber = cfg.blockChain.number + 1 := by
  obtain ⟨_, h, -⟩ := start_cases E amb cfg backup
  rw [h]
  exact ⟨rfl, rfl⟩

lemma start_committedPrepareCache :
    (start E amb cfg backup).reqCache.committedPrepareCache = (reloadMsg backup).getD {} := by
  obtain ⟨_, h, -⟩ := start_cases E amb cfg backup
  rw [h]

end

lemma configured_start (hamb : FixedConfig sealers limit amb) {cfg : NodeConfig} {backup : Option WireMsg} :
    Configured sealers limit (start E amb cfg backup) := by
  obtain ⟨_, -, hconf⟩ := start_cases E amb cfg backup
  rw [← hamb.sealers, ← hamb.limit]
  exact hconf hamb.nonempty

lemma Fresh.prepared (h : Fresh s) : Prepared E s := by
  refine ⟨fun _ => h.prepareCache, ?_, ?_, ?_⟩ <;>
  · intro p hsome
    cases h.proposal.symm.trans hsome

variable {e : Event × Ambient}

lemma heights_step (hs : Heights s) : Heights (step E s e) :=
  invariant_step Heights (fun _ _ => heights_smallStep) hs

lemma configured_step (hamb : FixedConfig sealers limit e.2) (hs : Configured sealers limit s) :
    Configured sealers limit (step E s e) :=
  invariant_step (Configured sealers limit) (fun _ _ => configured_smallStep hamb) hs

/-- In every run the number worked on is next to the highest block reported, which is not above the chain, and a prepare
cache in use holds the block whose hash is voted for. -/
theorem engine_consistent (E : Env) (amb : Ambient) (cfg : NodeConfig) (backup : Option WireMsg)
    (es : List (Event × Ambient)) :
    let s := Machine.run (step E) (start E amb cfg backup) es
    s.consensusBlockNumber = s.highestBlock.number + 1 ∧ s.highestBlock.number ≤ s.blockChain.number ∧
      (s.reqCache.prepareCache.height = -1 ∨
        ∃ b, s.reqCache.prepareCache.pBlock = some b ∧ b.hash E = s.reqCache.prepareCache.blockHash) := by
  intro s
  obtain ⟨hheights, hprepared⟩ : Heights s ∧ Prepared E s := Machine.run_induction (fun s => Heights s ∧ Prepared E s)
    (fun _ _ hs => ⟨heights_step hs.1, invariant_step (Prepared E) (fun _ _ => prepared_smallStep) hs.2⟩)
    ⟨heights_start E amb cfg backup, (fresh_start E amb cfg backup).prepared⟩ es
  refine ⟨hheights.consensus, hheights.reported, ?_⟩
  cases hproposal : s.reqCache.proposal with
  | none => exact .inl (hprepared.cleared hproposal).2
  | some p => exact .inr (hprepared.block p hproposal)

end PBFTEngine

/-!
Four sealers on a chain of a genesis block, in the symbolic environment.
-/

namespace Symbolic

def sealers : List NodeID := [11, 12, 13, 14]

def genesis : Block where
  header := { number := 0, timestamp := 1, sealer := 0, sealerList := sealers }

def chain : BlockChain where
  blocks := [genesis]
  nonempty := List.cons_ne_nil _ _
  numbered := by
    intro i b h
    cases i with
    | zero =>
      cases h
      rfl
    | succ => cases h

def ambient : Ambient where
  sealerList := sealers

lemma fixedConfig_ambient : FixedConfig sealers 1000 ambient := by
  decide

def node (key : NodeID) : PBFTEngine :=
  start env ambient { keyPair := key, blockChain := chain } none

def block (tx : Nat) : Block where
  header :=
    { number := 1, parentHash := genesis.hash env, timestamp := tx, sealer := 0, sealerList := sealers }
  transactions := [[tx]]

def executedHash (b : Block) : Hash :=
  (executeBlock env 0 (chain.headInfo env) b).1.hash env

def wire (idx : Nat) (view : Int) (h : Hash) (nonce : Nat) (payload : Option Bytes) : WireMsg :=
  let m := PBFTMsg.signed env (sealers.getD idx 0) 1 view idx h { nonce := nonce }
  { height := m.height, view := m.view, idx := m.idx, timestamp := m.timestamp
    blockHash := m.blockHash, sig := m.sig, sig2 := m.sig2, block := payload }

def deliver (kind : PacketType) (flag : Bool) (w : WireMsg) : Event × Ambient :=
  (.handleMsg
    { packetId := kind, nodeIdx := w.idx, prepareWithEmptyBlock := flag, data := some w }, ambient)

lemma decodeToMsg_deliver {kind : PacketType} {flag : Bool} {w : WireMsg} {p : PBFTMsgPacket}
    {m : PBFTMsg} (hp : (deliver kind flag w).1 = .handleMsg p) (h : decodeToMsg p = some m) : p.packetId = kind ∧ m =
      { height := w.height, view := w.view, idx := w.idx, timestamp := w.timestamp
        blockHash := w.blockHash, sig := w.sig, sig2 := w.sig2 } := by
  cases hp
  obtain ⟨w', hw', hm⟩ := bind_eq_some_iff.mp h
  cases hw'
  exact ⟨rfl, (WireMsg.toMsg_eq hm).2⟩

lemma decodeToPrepare_deliver {E : Env} {kind : PacketType} {flag : Bool} {w : WireMsg}
    {p : PBFTMsgPacket} {r : PrepareReq} (hp : (deliver kind flag w).1 = .handleMsg p)
    (h : decodeToPrepare p = some r) : r.height = w.height ∧ r.blockHash = w.blockHash ∧
      proposedBlock E r = w.block.bind E.decodeBlock := by
  cases hp
  obtain ⟨w', hw', hm⟩ := bind_eq_some_iff.mp h
  cases hw'
  obtain ⟨m, hmsg, hdecode⟩ := bind_eq_some_iff.mp hm
  obtain ⟨bytes, hbytes, rfl⟩ := map_eq_some_iff.mp hdecode
  obtain ⟨-, rfl⟩ := WireMsg.toMsg_eq hmsg
  rw [hbytes]
  exact ⟨rfl, rfl, rfl⟩

lemma of_all_deliver {E : Env} {amb : Ambient} {s : PBFTEngine} {kind : PacketType} {flag : Bool} {w : WireMsg}
    {r : PrepareReq} {b : Block} {P : Block → Bool} (hblock : (w.block.bind E.decodeBlock).all P = true)
    (ho : Origin E amb s (deliver kind flag w).1 r) (hb : proposedBlock E r = some b) : P b = true := by
  cases ho with
  | packet hkind hdecode =>
    have hp : (deliver kind flag w).1 = .handleMsg _ := rfl
    obtain ⟨-, -, hproposed⟩ := decodeToPrepare_deliver hp hdecode
    rw [← hproposed, hb] at hblock
    exact hblock

def propose (flag : Bool) (b : Block) : Event × Ambient :=
  deliver .PrepareReqPacket flag (wire 0 0 (b.hash env) 0 (some (env.encodeBlock b)))

def voteFor (kind : PacketType) (idx : Nat) (b : Block) (nonce : Nat) :
    Event × Ambient :=
  deliver kind false (wire idx 0 (executedHash b) nonce none)

end Symbolic

end FiscoBcos
