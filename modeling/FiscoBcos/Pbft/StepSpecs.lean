import FiscoBcos.Pbft.SmallSteps

/-!
# What the small steps can do

The counting and saving steps as explicit updates of the state, and the rule that turns an invariant
of the small steps into an invariant of the events.
-/

namespace FiscoBcos

open List PBFTReqCache BlockChain

variable {result : Block} {context : Bool}

namespace PBFTReqCache

def ViewChanges (P : ViewChangeReq → Prop) (c : PBFTReqCache) : Prop :=
  (∀ q ∈ c.recvViewChangeReq, ∀ r ∈ q.2, P r) ∧ ∀ r ∈ c.latestViewChangeReqCache, P r

def OnlyViewChanges (new : ViewChangeReq → Prop) (c c' : PBFTReqCache) : Prop :=
  (∃ rv lv, c' = { c with recvViewChangeReq := rv, latestViewChangeReqCache := lv }) ∧
    ∀ P : ViewChangeReq → Prop, (∀ r, new r → P r) → c.ViewChanges P → c'.ViewChanges P

variable {new : ViewChangeReq → Prop}

lemma OnlyViewChanges.refl (c : PBFTReqCache) : OnlyViewChanges new c c :=
  ⟨⟨c.recvViewChangeReq, c.latestViewChangeReqCache, rfl⟩, fun _ _ h => h⟩

lemma OnlyViewChanges.trans {c c' c'' : PBFTReqCache}
    (h : OnlyViewChanges new c c') (h' : OnlyViewChanges new c' c'') : OnlyViewChanges new c c'' := by
  obtain ⟨⟨_, _, rfl⟩, hP⟩ := h
  obtain ⟨⟨rv, lv, rfl⟩, hP'⟩ := h'
  exact ⟨⟨rv, lv, rfl⟩, fun P hnew hc => hP' P hnew (hP P hnew hc)⟩

section

variable (c : PBFTReqCache)

lemma onlyViewChanges_eraseLatest (idx : Nat) : OnlyViewChanges new c (c.eraseLatest idx) :=
  ⟨⟨c.recvViewChangeReq, _, rfl⟩, fun _ _ h => ⟨h.1, fun r hr => h.2 r (mem_filter.mp hr).1⟩⟩

lemma onlyViewChanges_updateViewBucket {view : Int} {f : List ViewChangeReq → List ViewChangeReq}
    (hf : ∀ l, ∀ r ∈ f l, r ∈ l ∨ new r) : OnlyViewChanges new c (c.updateViewBucket view f) := by
  refine ⟨⟨_, c.latestViewChangeReqCache, rfl⟩, fun P hnew h => ⟨fun q hq r hr => ?_, h.2⟩⟩
  obtain ⟨q', hq', rfl⟩ := mem_map.mp hq
  split at hr
  · rcases hf q'.2 r hr with hold | hn
    · exact h.1 q' hq' r hold
    · exact hnew r hn
  · exact h.1 q' hq' r hr

open OnlyViewChanges

lemma onlyViewChanges_removeInvalidViewChange {E : Env} {view : Int} {highest : BlockHeader} :
    OnlyViewChanges (fun _ => False) c (c.removeInvalidViewChange E view highest) := by
  unfold removeInvalidViewChange
  split
  · exact refl c
  · exact (onlyViewChanges_updateViewBucket c fun l r hr => .inl (mem_filter.mp hr).1).trans
      ⟨⟨_, _, rfl⟩, fun _ _ h => ⟨h.1, fun r hr => h.2 r (mem_filter.mp hr).1⟩⟩

variable (req : ViewChangeReq)

lemma onlyViewChanges_eraseExpiredViewChange : OnlyViewChanges new c (c.eraseExpiredViewChange req) := by
  unfold eraseExpiredViewChange
  split
  · exact refl c
  split
  · exact refl c
  split
  · exact (onlyViewChanges_updateViewBucket c fun l r hr =>
      .inl (mem_filter.mp hr).1).trans (onlyViewChanges_eraseLatest _ _)
  · exact onlyViewChanges_eraseLatest c _

lemma onlyViewChanges_checkViewChangeReq (n : Int) : OnlyViewChanges new c (c.checkViewChangeReq req n).2 := by
  unfold checkViewChangeReq
  split
  · exact refl c
  split
  · exact refl c
  split
  · exact onlyViewChanges_eraseExpiredViewChange c _
  · split
    · exact refl c
    · split <;> exact refl c

lemma onlyViewChanges_insertViewChange : OnlyViewChanges (fun r => r = req) c (c.insertViewChange req) := by
  unfold insertViewChange
  split
  · refine onlyViewChanges_updateViewBucket c fun l r hr => ?_
    split at hr
    · obtain ⟨x, hx, rfl⟩ := mem_map.mp hr
      split
      · exact .inr rfl
      · exact .inl hx
    · simpa using hr
  · refine ⟨⟨_, c.latestViewChangeReqCache, rfl⟩, fun P hnew h => ⟨fun q hq r hr => ?_, h.2⟩⟩
    rcases mem_append.mp hq with hold | hlast
    · exact h.1 q hold r hr
    · obtain rfl := mem_singleton.mp hlast
      exact hnew r (mem_singleton.mp hr)

lemma onlyViewChanges_addViewChangeReq {req : ViewChangeReq} {n : Int} :
    OnlyViewChanges (fun r => r = req) c (c.addViewChangeReq req n) := by
  have hcheck := @onlyViewChanges_checkViewChangeReq (fun r => r = req) c req n
  unfold addViewChangeReq
  dsimp only
  split
  · have hinsert := ((hcheck.trans (onlyViewChanges_eraseExpiredViewChange _ req)).trans
      (onlyViewChanges_insertViewChange _ req)).trans (onlyViewChanges_eraseLatest _ req.idx)
    refine hinsert.trans ⟨⟨_, _, rfl⟩, fun P hnew h => ⟨h.1, fun r hr => ?_⟩⟩
    rcases mem_cons.mp hr with rfl | hold
    · exact hnew r rfl
    · exact h.2 r hold
  · exact hcheck

end

end PBFTReqCache

namespace PBFTEngine

variable {E : Env} {amb : Ambient}

variable {s s₀ a b : PBFTEngine} {req : PrepareReq} {e : Event}

lemma invariant_step (Inv : PBFTEngine → Prop) {e : Event × Ambient}
    (hsmall : ∀ a b, SmallStep E e.2 s e.1 a b → Inv a → Inv b) (h : Inv s) : Inv (step E s e) :=
  Machine.invariant_of_small Inv hsmall step_smallSteps h

lemma Frame.minValidNodes {t : PBFTEngine} (h : Frame s t) : t.minValidNodes = s.minValidNodes := by
  unfold PBFTEngine.minValidNodes
  rw [h.nodeNum, h.f]

def withSigns (s : PBFTEngine) (m : ReqMap) : PBFTEngine :=
  { s with reqCache := { s.reqCache with signCache := m } }

def withCommits (s : PBFTEngine) (m : ReqMap) : PBFTEngine :=
  { s with reqCache := { s.reqCache with commitCache := m } }

lemma frame_reqCache {c : PBFTReqCache} : Frame s { s with reqCache := c } :=
  ⟨rfl, rfl, rfl, rfl, rfl, rfl, rfl, rfl, rfl, rfl, rfl, rfl⟩

lemma frame_timeManager {t : TimeManager} : Frame s { s with timeManager := t } :=
  ⟨rfl, rfl, rfl, rfl, rfl, rfl, rfl, rfl, rfl, rfl, rfl, rfl⟩

lemma frame_note {a : Action} : Frame s (s.note a) :=
  ⟨rfl, rfl, rfl, rfl, rfl, rfl, rfl, rfl, rfl, rfl, rfl, rfl⟩

section

variable (s : PBFTEngine) (m : ReqMap)

lemma frame_withSigns : Frame s (s.withSigns m) :=
  frame_reqCache

lemma frame_withCommits : Frame s (s.withCommits m) :=
  frame_reqCache

@[simp]
lemma withSigns_reqCache :
    (s.withSigns m).reqCache = { s.reqCache with signCache := m } := rfl

end

def ownVote (E : Env) (s : PBFTEngine) (st : Stamp) : PBFTMsg :=
  s.reqCache.prepareCache.vote E s.keyPair s.idx st

lemma frame_lockAndVote : Frame s (s.lockAndVote E amb) := by
  exact ((((frame_reqCache.trans frame_note).trans frame_note).trans
    frame_reqCache).trans frame_note).trans frame_timeManager

lemma lockAndVote_reqCache (s : PBFTEngine) : (s.lockAndVote E amb).reqCache = { s.reqCache with
        committedPrepareCache := s.reqCache.rawPrepareCache
        commitCache := s.reqCache.commitCache.add (s.ownVote E amb.commitStamp) } := rfl

lemma lockAndVote_log (s : PBFTEngine) : (s.lockAndVote E amb).log =
      .broadcastCommitReq (s.ownVote E amb.commitStamp) s.reqCache.proposal :: .enqueueBackup ::
        .updateCommittedPrepare s.signTally s.reqCache.rawPrepareCache :: s.log := rfl

def prepareFor (E : Env) (amb : Ambient) (s : PBFTEngine) (full : Bool) (req : PrepareReq)
    (b result : Block) (context : Bool) : PBFTEngine :=
  ((s.accept full req).noteExecution req b result).vote E amb req result context

lemma frame_accept (s : PBFTEngine) (full : Bool) (req : PrepareReq) : Frame s (s.accept full req) :=
  ⟨rfl, rfl, rfl, rfl, rfl, rfl, rfl, rfl, rfl, rfl, rfl, rfl⟩

lemma frame_noteExecution (s : PBFTEngine) (req : PrepareReq) (b result : Block) :
    Frame s (s.noteExecution req b result) :=
  frame_reqCache.trans frame_note

lemma frame_prepareFor (s : PBFTEngine) (full : Bool) (req : PrepareReq) (b result : Block)
    (context : Bool) : Frame s (s.prepareFor E amb full req b result context) := by
  exact (((frame_accept s full req).trans (frame_noteExecution _ req b result)).trans
    frame_reqCache).trans (frame_reqCache.trans frame_note)

def executedRaw (req : PrepareReq) (result : Block) : PrepareReq :=
  if req.pBlock.isSome then { req with pBlock := some result } else req

lemma executedRaw_toPBFTMsg : (executedRaw req result).toPBFTMsg = req.toPBFTMsg := by
  unfold executedRaw
  split <;> rfl

section

variable (s : PBFTEngine) (full : Bool) (req : PrepareReq)

lemma accept_reqCache : (s.accept full req).reqCache = { s.reqCache with
        rawPrepareCache := req
        prepareCache := if full then s.reqCache.prepareCache.clear else s.reqCache.prepareCache
        proposal := if full then none else s.reqCache.proposal
        partiallyRawPrepare := if full then s.reqCache.partiallyRawPrepare else none } := by
  cases full <;> rfl

lemma noteExecution_accept_reqCache (b result : Block) : ((s.accept full req).noteExecution req b result).reqCache =
      { (s.accept full req).reqCache with rawPrepareCache := executedRaw req result } := by
  cases full <;> rfl

end

lemma prepareFor_reqCache (E : Env) (amb : Ambient) (s : PBFTEngine) (full : Bool) (req : PrepareReq) (b result : Block)
    (context : Bool) : (s.prepareFor E amb full req b result context).reqCache = { s.reqCache with
        rawPrepareCache := executedRaw req result
        prepareCache := req.executed E s.keyPair result context amb.executedStamp, proposal := some req
        signCache := (removeInvalidReqs s.reqCache.signCache (result.hash E) req.view).add
          ((req.executed E s.keyPair result context amb.executedStamp).vote E s.keyPair s.idx amb.signStamp)
        commitCache := removeInvalidReqs s.reqCache.commitCache (result.hash E) req.view
        partiallyRawPrepare := if full then s.reqCache.partiallyRawPrepare else none } := by
  cases full <;> rfl

lemma prepareFor_log {full : Bool} {b : Block} : (s.prepareFor E amb full req b result context).log =
      .broadcastSignReq ((req.executed E s.keyPair result context amb.executedStamp).vote E s.keyPair
        s.idx amb.signStamp) req :: .execBlock req b :: s.log := by
  cases full <;> rfl

def signedCache (c : PBFTReqCache) (b : Block) : PBFTReqCache :=
  { c with prepareCache := { c.prepareCache with pBlock := some b } }

def signedBlock (s : PBFTEngine) (b : Block) : Block :=
  s.reqCache.generateAndSetSigList b s.minValidNodes

lemma saveBlock_eq (s : PBFTEngine) (b : Block) : s.saveBlock E b = { s with
        blockChain := (s.blockChain.commitBlock E (s.signedBlock b)).2
        log := .commitBlock s.commitTally (s.signedBlock b) (s.blockChain.commitBlock E (s.signedBlock b)).1 :: s.log
        reqCache :=
          if (s.blockChain.commitBlock E (s.signedBlock b)).1 = .OK then
            (signedCache s.reqCache (s.signedBlock b)).delCache E (s.signedBlock b).header
          else signedCache s.reqCache (s.signedBlock b) } := by
  unfold saveBlock
  rw [show s.reqCache.generateAndSetSigList b s.minValidNodes = s.signedBlock b from rfl]
  by_cases hok : (s.blockChain.commitBlock E (s.signedBlock b)).1 = .OK
  · rw [if_pos hok, if_pos hok]
    rfl
  · rw [if_neg hok, if_neg hok]
    rfl

lemma saveBlock_log {b : Block} : (s.saveBlock E b).log = .commitBlock s.commitTally (s.signedBlock b)
      (s.blockChain.commitBlock E (s.signedBlock b)).1 :: s.log := by
  rw [saveBlock_eq]

lemma saveBlock_reqCache {b : Block} : (s.saveBlock E b).reqCache =
        (signedCache s.reqCache (s.signedBlock b)).delCache E (s.signedBlock b).header ∨
      (s.saveBlock E b).reqCache = signedCache s.reqCache (s.signedBlock b) := by
  rw [saveBlock_eq]
  split
  · exact .inl rfl
  · exact .inr rfl

lemma signedBlock_header (s : PBFTEngine) (b : Block) : (s.signedBlock b).header = b.header := by
  unfold signedBlock generateAndSetSigList
  split
  · rfl
  · split <;> rfl

lemma signedBlock_transactions (s : PBFTEngine) (b : Block) : (s.signedBlock b).transactions = b.transactions := by
  unfold signedBlock generateAndSetSigList
  split
  · rfl
  · split <;> rfl

structure ValidPrepare (E : Env) (s : PBFTEngine) (req : PrepareReq) : Prop where
  height : req.height = s.consensusBlockNumber
  view : req.view = s.view
  lock : req.isEmpty = true ∨ (req.height = s.reqCache.committedPrepareCache.height →
    req.blockHash = s.reqCache.committedPrepareCache.blockHash)
  leader : s.getLeader = some req.idx
  sign : checkSign E s.sealerList req.toPBFTMsg = true

lemma validPrepare_of_isValidPrepare (h : s.isValidPrepare E amb req = .VALID) : ValidPrepare E s req := by
  unfold isValidPrepare at h
  split_ifs at h with hexist hsync hcons hsaved hfuture hleader hsign
  simp only [hasConsensused, decide_eq_true_eq, not_or, not_and, not_lt] at hcons
  simp only [isFuturePrepare, decide_eq_true_eq, not_or, not_and, not_lt] at hfuture
  have hheight : req.height = s.consensusBlockNumber := le_antisymm hfuture.1 hcons.1
  refine ⟨hheight, le_antisymm (hfuture.2 hheight) (hcons.2 hheight), ?_, ?_, ?_⟩
  · simp only [isHashSavedAfterCommit, Bool.and_eq_true, Bool.not_eq_true', Bool.not_eq_false',
      decide_eq_true_eq, not_and, ne_eq] at hsaved
    cases hempty : req.isEmpty with
    | true => exact .inl rfl
    | false => exact .inr fun hlock => not_not.mp fun hne => hsaved hempty hlock hne
  · simpa [isValidLeader] using hleader
  · simpa using hsign

lemma sigCacheSize_spec (E : Env) (s : PBFTEngine) : ∃ m, (s.sigCacheSize E).2 = s.withSigns m ∧
      Recounted (checkSign E s.sealerList) s.reqCache.signCache m ∧ (s.minValidNodes ≤ (s.sigCacheSize E).1 →
          Counted m s.reqCache.prepareCache.blockHash s.minValidNodes) := by
  unfold sigCacheSize
  rw [getSigCacheSize_eq]
  exact ⟨_, rfl, countReqs_spec⟩

lemma commitCacheSize_spec (E : Env) (s : PBFTEngine) : ∃ m, (s.commitCacheSize E).2 = s.withCommits m ∧
      Recounted (checkSign E s.sealerList) s.reqCache.commitCache m ∧ (s.minValidNodes ≤ (s.commitCacheSize E).1 →
          Counted m s.reqCache.prepareCache.blockHash s.minValidNodes) := by
  unfold commitCacheSize
  rw [getCommitCacheSize_eq]
  exact ⟨_, rfl, countReqs_spec⟩

/-- A count that does not lead to the commit branch marks requests; one that does has found a quorum of checked sign
requests, and the prepare cache in the present view. -/
theorem countAndVote_cases :
    ∃ m, Recounted (checkSign E s.sealerList) s.reqCache.signCache m ∧ (s.countAndVote E amb = s.withSigns m ∨
        s.reqCache.prepareCache.view = s.view ∧ Counted m s.reqCache.prepareCache.blockHash s.minValidNodes ∧
            s.countAndVote E amb = (s.withSigns m).lockAndVote E amb) := by
  obtain ⟨m, hm, hre, hcount⟩ := sigCacheSize_spec E s
  refine ⟨m, hre, ?_⟩
  unfold countAndVote
  dsimp only
  rw [hm]
  split
  · rename_i hbranch
    exact .inr ⟨hbranch.2, hcount hbranch.1.ge, rfl⟩
  · exact .inl rfl

lemma checkAndSave_cases (E : Env) (s : PBFTEngine) :
    ∃ m m', Recounted (checkSign E s.sealerList) s.reqCache.signCache m ∧
      Recounted (checkSign E s.sealerList) s.reqCache.commitCache m' ∧
        (s.checkAndSave E = (s.withSigns m).withCommits m' ∨ ∃ b, s.reqCache.prepareCache.view = s.view ∧
            s.highestBlock.number < s.reqCache.prepareCache.height ∧ s.reqCache.prepareCache.pBlock = some b ∧
                Counted m' s.reqCache.prepareCache.blockHash s.minValidNodes ∧
                  s.checkAndSave E = ((s.withSigns m).withCommits m').saveBlock E b) := by
  obtain ⟨m, hm, hre, -⟩ := sigCacheSize_spec E s
  obtain ⟨m', hm', hre', hcount⟩ := commitCacheSize_spec E (s.withSigns m)
  refine ⟨m, m', hre, hre', ?_⟩
  unfold checkAndSave
  dsimp only
  rw [hm, hm']
  split
  · rename_i hsizes
    split
    · exact .inl rfl
    rename_i hview
    split
    · exact .inl rfl
    rename_i hheight
    split
    · exact .inl rfl
    · rename_i b hb
      exact .inr ⟨b, not_not.mp hview, not_le.mp hheight, hb, hcount hsizes.2, rfl⟩
  · exact .inl rfl

lemma frame_countAndVote : Frame s (s.countAndVote E amb) := by
  obtain ⟨m, -, hc | ⟨-, -, hc⟩⟩ := countAndVote_cases
  · rw [hc]
    exact frame_withSigns s m
  · rw [hc]
    exact (frame_withSigns s m).trans frame_lockAndVote

lemma frame_checkAndSave (s : PBFTEngine) : Frame s { s.checkAndSave E with blockChain := s.blockChain } := by
  obtain ⟨m, m', -, -, hs | ⟨b, -, -, -, -, hs⟩⟩ := checkAndSave_cases E s
  · rw [hs]
    exact (frame_withSigns s m).trans (frame_withCommits _ m')
  rw [hs, saveBlock_eq]
  have hframe := (frame_withSigns s m).trans (frame_withCommits _ m')
  exact ⟨hframe.1, hframe.2, hframe.3, hframe.4, hframe.5, hframe.6, hframe.7, hframe.8, hframe.9,
    hframe.10, hframe.11, rfl⟩

lemma number_le_checkAndSave (s : PBFTEngine) : s.blockChain.number ≤ (s.checkAndSave E).blockChain.number := by
  obtain ⟨m, m', -, -, hs | ⟨b, -, -, -, -, hs⟩⟩ := checkAndSave_cases E s
  · rw [hs]
    exact le_rfl
  · rw [hs, saveBlock_eq]
    exact number_le_commitBlock E s.blockChain _

def ownIdx (key : NodeID) (sealers : List NodeID) : Nat :=
  if key ∈ sealers then sealers.idxOf key % (MAXIDX + 1) else MAXIDX

structure Configured (sealers : List NodeID) (limit : Nat) (s : PBFTEngine) : Prop where
  sealerList : s.sealerList = sealers
  nodeNum : s.nodeNum = sealers.length % (MAXIDX + 1)
  f : s.f = (s.nodeNum - 1) / 3
  idx : s.idx = ownIdx s.keyPair sealers
  cfgErr : s.cfgErr = (s.idx == MAXIDX)
  maxBlockTransactions : s.maxBlockTransactions = limit

structure Config where
  timeManager : TimeManager
  limit : Nat
  sealers : List NodeID
  nodeNum : Nat
  f : Nat
  cfgErr : Bool
  idx : Nat

abbrev withConfig (s : PBFTEngine) (c : Config) : PBFTEngine :=
  { s with
    maxBlockTransactions := c.limit, sealerList := c.sealers, nodeNum := c.nodeNum, f := c.f
    cfgErr := c.cfgErr, idx := c.idx, timeManager := c.timeManager }

lemma resetConfig_cases (amb : Ambient) (s : PBFTEngine) : ∃ c, s.resetConfig amb = s.withConfig c ∧
      (amb.sealerList ≠ [] →
        Configured (amb.sealerList.insertionSort (· ≤ ·)) amb.txCountLimit (s.resetConfig amb)) := by
  unfold resetConfig resetConsensusTimeout
  dsimp only
  split
  · rename_i hnil
    refine ⟨⟨_, _, _, _, _, _, _⟩, rfl, fun hne => ?_⟩
    have hlen := length_insertionSort (· ≤ ·) amb.sealerList
    rw [hnil] at hlen
    exact absurd (length_eq_zero_iff.mp hlen.symm) hne
  · split
    · exact ⟨⟨_, _, _, _, _, _, _⟩, rfl, fun _ => ⟨rfl, rfl, rfl, rfl, rfl, rfl⟩⟩
    · exact ⟨⟨_, _, _, _, _, _, _⟩, rfl, fun _ => ⟨rfl, rfl, rfl, rfl, rfl, rfl⟩⟩

section

variable (E : Env) (c : PBFTReqCache) (header : BlockHeader)

lemma delCache_prepareCache :
    (c.delCache E header).prepareCache = c.prepareCache ∧ (c.delCache E header).proposal = c.proposal ∨
      (c.delCache E header).prepareCache = c.prepareCache.clear ∧ (c.delCache E header).proposal = none := by
  unfold delCache
  dsimp only
  split
  · exact .inr ⟨rfl, rfl⟩
  · exact .inl ⟨rfl, rfl⟩

lemma delCache_eq : c.delCache E header = { c with
        prepareCache := (c.delCache E header).prepareCache, proposal := (c.delCache E header).proposal
        signCache := c.signCache.erase (E.headerHash header), commitCache := c.commitCache.erase (E.headerHash header)
        futurePrepareCache := c.futurePrepareCache.filter fun r => decide (header.number < r.height) } := by
  unfold delCache
  dsimp only
  split <;> rfl

end

abbrev reportNew (E : Env) (s : PBFTEngine) (b : Block) (c : Config) : PBFTEngine :=
  { s.withConfig c with
    log := .reportBlock b.header.number :: s.log
    highestBlock := b.header, view := 0, toView := 0, leaderFailed := false
    consensusBlockNumber := b.header.number + 1
    reqCache := (s.reqCache.delInvalidViewChange E b.header).delCache E b.header }

abbrev reportAgain (E : Env) (s : PBFTEngine) (b : Block) (c : Config) : PBFTEngine :=
  { s.withConfig c with
    log := .reportBlock b.header.number :: s.log
    highestBlock := b.header, reqCache := s.reqCache.delCache E b.header }

lemma reportBlockWithoutLock_cases {b : Block} :
    s.reportBlockWithoutLock E amb b = s.note (.reportBlock b.header.number) ∧
        ¬(s.blockChain.number = 0 ∨ s.highestBlock.number < b.header.number) ∨ ∃ c : Config, (amb.sealerList ≠ [] →
          Configured (amb.sealerList.insertionSort (· ≤ ·)) amb.txCountLimit (s.reportBlockWithoutLock E amb b)) ∧
        (s.blockChain.number = 0 ∨ s.highestBlock.number < b.header.number) ∧
        (s.consensusBlockNumber ≤ b.header.number ∧ s.reportBlockWithoutLock E amb b = reportNew E s b c ∨
          b.header.number < s.consensusBlockNumber ∧ s.reportBlockWithoutLock E amb b = reportAgain E s b c) := by
  unfold reportBlockWithoutLock
  dsimp only
  split
  · rename_i htaken
    refine .inr ?_
    split
    · rename_i hnew
      obtain ⟨c, heq, hconf⟩ := resetConfig_cases amb { s.note (.reportBlock b.header.number) with
          highestBlock := b.header, view := 0, toView := 0, leaderFailed := false
          timeManager := { s.timeManager with lastConsensusTime := amb.steadyTime, changeCycle := 0 }
          consensusBlockNumber := b.header.number + 1
          reqCache := s.reqCache.delInvalidViewChange E b.header }
      refine ⟨c, fun hne => ?_, htaken, .inl ⟨hnew, ?_⟩⟩
      · have hc := hconf hne
        exact ⟨hc.sealerList, hc.nodeNum, hc.f, hc.idx, hc.cfgErr, hc.maxBlockTransactions⟩
      · exact congrArg (fun r : PBFTEngine => { r with reqCache := r.reqCache.delCache E b.header }) heq
    · rename_i hold
      obtain ⟨c, heq, hconf⟩ := resetConfig_cases amb
        { s.note (.reportBlock b.header.number) with highestBlock := b.header }
      refine ⟨c, fun hne => ?_, htaken, .inr ⟨not_le.mp hold, ?_⟩⟩
      · have hc := hconf hne
        exact ⟨hc.sealerList, hc.nodeNum, hc.f, hc.idx, hc.cfgErr, hc.maxBlockTransactions⟩
      · exact congrArg (fun r : PBFTEngine => { r with reqCache := r.reqCache.delCache E b.header }) heq
  · rename_i hskip
    exact .inl ⟨rfl, hskip⟩

section

variable {amb : Ambient} {P : PBFTEngine → Prop}

lemma addViewChangeReq_rec {req : ViewChangeReq} {n : Int} (h : ∀ recv latest, P { s with
      reqCache := { s.reqCache with recvViewChangeReq := recv, latestViewChangeReqCache := latest } }) :
    P { s with reqCache := s.reqCache.addViewChangeReq req n } := by
  obtain ⟨⟨recv, latest, hv⟩, -⟩ := onlyViewChanges_addViewChangeReq s.reqCache
  rw [hv]
  exact h recv latest

lemma resetConfig_rec (h : ∀ c, P (s.withConfig c)) : P (s.resetConfig amb) := by
  obtain ⟨c, hr, -⟩ := resetConfig_cases amb s
  rw [hr]
  exact h c

lemma reportBlockWithoutLock_rec {b : Block} (hskip : P (s.note (.reportBlock b.header.number)))
    (hnew : ∀ c, P (reportNew E s b c)) (hagain : ∀ c, P (reportAgain E s b c)) :
    P (s.reportBlockWithoutLock E amb b) := by
  rcases reportBlockWithoutLock_cases with ⟨hr, -⟩ | ⟨c, -, -, ⟨-, hr⟩ | ⟨-, hr⟩⟩
  · rw [hr]
    exact hskip
  · rw [hr]
    exact hnew c
  · rw [hr]
    exact hagain c

lemma syncBlock_rec {b : Block} (hskip : P s)
    (hsync : P ({ s with blockChain := (s.blockChain.commitBlock E b).2 }.note (.syncBlock b))) :
    P (s.syncBlock E b) := by
  unfold syncBlock
  dsimp only
  split
  · exact hsync
  · exact hskip

end

lemma Ready.reqCache (h : Ready s₀ s) :
    s.reqCache = { s₀.reqCache with partiallyRawPrepare := s.reqCache.partiallyRawPrepare } := by
  obtain ⟨t, n, l, p, rfl⟩ := h
  rfl

lemma Ready.frame (h : Ready s₀ s) : Frame s₀ s := by
  obtain ⟨t, n, l, p, rfl⟩ := h
  exact ⟨rfl, rfl, rfl, rfl, rfl, rfl, rfl, rfl, rfl, rfl, rfl, rfl⟩

lemma Execution.number {b : Block} (hzero : ∀ h, E.headerHash h ≠ 0) (h : Execution E amb s req b result context) :
    b.header.number = s.blockChain.number + 1 := by
  have hvalid := h.valid
  simp only [checkBlockValid, Bool.and_eq_true, Bool.or_eq_true, decide_eq_true_eq, beq_iff_eq] at hvalid
  obtain ⟨⟨⟨⟨-, hlt⟩, hparent⟩, hnumber⟩, -⟩ := hvalid
  have hpos := s.blockChain.number_nonneg
  rcases hnumber with hone | hhash
  · omega
  unfold numberHash at hhash
  cases hb : s.blockChain.getBlockByNumber (b.header.number - 1) with
  | none =>
    -- the hash of a missing block is the empty one, which no block of the chain has
    rw [hb] at hhash
    obtain ⟨x, hx⟩ := Option.isSome_iff_exists.mp hparent
    have hx0 := find?_some hx
    rw [← hhash] at hx0
    exact absurd (beq_iff_eq.mp hx0) (hzero x.header)
  | some =>
    have := (number_of_getBlockByNumber hb).2
    omega

/-- What a small step does to the chain: nothing, or it hands it the block in the prepare cache or one of block sync. -/
inductive ChainMove (E : Env) (s₀ : PBFTEngine) (e : Event) (a : PBFTEngine) : BlockChain → Prop where
  | stay : ChainMove E s₀ e a a.blockChain
  | save (bl bl' : Block) (hheight : a.highestBlock.number < a.reqCache.prepareCache.height)
      (hblock : a.reqCache.prepareCache.pBlock = some bl) (hheader : bl'.header = bl.header)
      (htxs : bl'.transactions = bl.transactions) : ChainMove E s₀ e a (a.blockChain.commitBlock E bl').2
  | sync (bl : Block) (hs : a = s₀) (he : e = .syncBlock bl) : ChainMove E s₀ e a (a.blockChain.commitBlock E bl).2

lemma SmallStep.chainMove (h : SmallStep E amb s₀ e a b) : ChainMove E s₀ e a b.blockChain := by
  have hframe : ∀ t, Frame a t → ChainMove E s₀ e a t.blockChain := by
    intro t ht
    rw [ht.blockChain]
    exact .stay
  cases h with
  | prepare full req bl result context =>
    exact hframe _ ((frame_prepareFor a full req bl result context).trans frame_countAndVote)
  | signVote => exact hframe _ (frame_reqCache.trans frame_countAndVote)
  | save =>
    obtain ⟨m, m', -, -, hs | ⟨bl, -, hheight, hblock, -, hs⟩⟩ := checkAndSave_cases E a
    · rw [hs]
      exact .stay
    · rw [hs, saveBlock_eq]
      exact .save bl _ hheight hblock (signedBlock_header _ bl) (signedBlock_transactions _ bl)
  | report =>
    exact reportBlockWithoutLock_rec (P := fun s => ChainMove E s₀ e a s.blockChain) .stay (fun _ => .stay)
      fun _ => .stay
  | reset => exact resetConfig_rec (P := fun s => ChainMove E s₀ e a s.blockChain) fun _ => .stay
  | sync bl hs he =>
    unfold syncBlock
    by_cases hok : (a.blockChain.commitBlock E bl).1 = .OK
    · rw [if_pos hok]
      exact .sync bl hs he
    · rw [if_neg hok]
      exact .stay
  | _ => exact .stay

lemma SmallStep.getBlockByNumber {i : Int} {x : Block} (h : SmallStep E amb s₀ e a b)
    (hx : a.blockChain.getBlockByNumber i = some x) : b.blockChain.getBlockByNumber i = some x := by
  have hmove := h.chainMove
  generalize b.blockChain = c at hmove ⊢
  cases hmove with
  | stay => exact hx
  | save => exact getBlockByNumber_commitBlock hx
  | sync => exact getBlockByNumber_commitBlock hx

lemma SmallStep.keyPair (h : SmallStep E amb s₀ e a b) : b.keyPair = a.keyPair := by
  cases h with
  | prepare full req bl result context =>
    exact ((frame_prepareFor a full req bl result context).trans frame_countAndVote).keyPair
  | signVote => exact (frame_reqCache.trans frame_countAndVote).keyPair
  | save => exact (frame_checkAndSave a).keyPair
  | report =>
    exact reportBlockWithoutLock_rec (P := fun s => s.keyPair = a.keyPair) rfl (fun _ => rfl) fun _ => rfl
  | reset => exact resetConfig_rec (P := fun s => s.keyPair = a.keyPair) fun _ => rfl
  | sync => exact syncBlock_rec (P := fun s => s.keyPair = a.keyPair) rfl rfl
  | _ => rfl

/-- What a small step may add to the log; for executions and sign requests, where they come from. -/
inductive Logged (E : Env) (amb : Ambient) (s₀ : PBFTEngine) (e : Event) (a : PBFTEngine) :
    Action → Prop where
  | execBlock {req : PrepareReq} {b result : Block} {context : Bool} (ht : Takes E s₀ (e, amb) req)
      (hready : Ready s₀ a) (hexec : Execution E amb s₀ req b result context) :
      Logged E amb s₀ e a (.execBlock req b)
  | broadcastSignReq {req : PrepareReq} {b result : Block} {context : Bool}
      (ht : Takes E s₀ (e, amb) req) (hready : Ready s₀ a)
      (hexec : Execution E amb s₀ req b result context)
      (hcontext : context = true ∨ b.transactions = []) :
      Logged E amb s₀ e a (.broadcastSignReq
        ((req.executed E a.keyPair result context amb.executedStamp).vote E a.keyPair a.idx amb.signStamp) req)
  | other {x : Action} (hexec : ∀ req b, x ≠ .execBlock req b)
      (hsign : ∀ req p, x ≠ .broadcastSignReq req p) : Logged E amb s₀ e a x

lemma Logged.of_execBlock {b : Block}
    (h : Logged E amb s₀ e a (.execBlock req b)) : Takes E s₀ (e, amb) req ∧ Ready s₀ a ∧
      ∃ result context, Execution E amb s₀ req b result context := by
  cases h with
  | execBlock ht hready hexec => exact ⟨ht, hready, _, _, hexec⟩
  | other hexec => exact absurd rfl (hexec req b)

lemma Logged.of_broadcastSignReq {r : SignReq} {p : PrepareReq}
    (h : Logged E amb s₀ e a (.broadcastSignReq r p)) : Takes E s₀ (e, amb) p ∧ Ready s₀ a ∧
      ∃ b result context, Execution E amb s₀ p b result context ∧ (context = true ∨ b.transactions = []) ∧
          r = (p.executed E a.keyPair result context amb.executedStamp).vote E a.keyPair a.idx amb.signStamp := by
  cases h with
  | broadcastSignReq ht hready hexec hcontext => exact ⟨ht, hready, _, _, _, hexec, hcontext, rfl⟩
  | other _ hsign => exact absurd rfl (hsign r p)

lemma countAndVote_log : ∃ l, (s.countAndVote E amb).log = l ++ s.log ∧
      ∀ x ∈ l, (∀ req b, x ≠ .execBlock req b) ∧ ∀ req p, x ≠ .broadcastSignReq req p := by
  obtain ⟨m, -, hc | ⟨-, -, hc⟩⟩ := countAndVote_cases
  · exact ⟨[], by rw [hc]; rfl, by simp⟩
  · refine ⟨[_, _, _], by rw [hc, lockAndVote_log]; rfl, fun x hx => ?_⟩
    simp only [mem_cons, not_mem_nil, or_false] at hx
    rcases hx with rfl | rfl | rfl <;> exact ⟨by simp, by simp⟩

lemma SmallStep.logged (h : SmallStep E amb s₀ e a b) : ∃ l, b.log = l ++ a.log ∧ ∀ x ∈ l, Logged E amb s₀ e a x := by
  have hnone : ∃ l, a.log = l ++ a.log ∧ ∀ x ∈ l, Logged E amb s₀ e a x := ⟨[], rfl, by simp⟩
  have hone : ∀ x, (∀ req b, x ≠ .execBlock req b) → (∀ req p, x ≠ .broadcastSignReq req p) →
      ∃ l, x :: a.log = l ++ a.log ∧ ∀ x ∈ l, Logged E amb s₀ e a x := by
    intro x hexec hsign
    exact ⟨[x], rfl, fun y hy => mem_singleton.mp hy ▸ Logged.other hexec hsign⟩
  have hcount : ∀ s : PBFTEngine, ∃ l, (s.countAndVote E amb).log = l ++ s.log ∧ ∀ x ∈ l, Logged E amb s₀ e a x := by
    intro s
    obtain ⟨l, hl, hall⟩ := countAndVote_log
    exact ⟨l, hl, fun x hx => Logged.other (hall x hx).1 (hall x hx).2⟩
  cases h with
  | propose req | sendViewChange req => exact hone _ (by simp) (by simp)
  | execute full req b result ho hv hready hfull hexec =>
    refine ⟨[.execBlock req b], rfl, fun x hx => ?_⟩
    obtain rfl := mem_singleton.mp hx
    exact Logged.execBlock ⟨ho, hv⟩ hready hexec
  | prepare full req b result context ho hv hready hfull hexec hcontext =>
    obtain ⟨l, hl, hall⟩ := hcount (a.prepareFor E amb full req b result context)
    refine ⟨l ++ [.broadcastSignReq ((req.executed E a.keyPair result context
      amb.executedStamp).vote E a.keyPair a.idx amb.signStamp) req, .execBlock req b], ?_,
      fun x hx => ?_⟩
    · rw [append_assoc]
      exact hl
    · rcases mem_append.mp hx with hx | hx
      · exact hall x hx
      simp only [mem_cons, not_mem_nil, or_false] at hx
      rcases hx with rfl | rfl
      · exact Logged.broadcastSignReq ⟨ho, hv⟩ hready hexec hcontext
      · exact Logged.execBlock ⟨ho, hv⟩ hready hexec
  | signVote p req => exact hcount { a with reqCache := a.reqCache.addSignReq req }
  | save =>
    obtain ⟨m, m', -, -, hs | ⟨b, -, -, -, -, hs⟩⟩ := checkAndSave_cases E a
    · rw [hs]
      exact hnone
    · rw [hs, saveBlock_log]
      exact hone _ (by simp) (by simp)
  | changeView => exact hone _ (by simp) (by simp)
  | report =>
    rcases reportBlockWithoutLock_cases with ⟨hr, -⟩ | ⟨_, -, -, ⟨-, hr⟩ | ⟨-, hr⟩⟩ <;>
    · rw [hr]
      exact hone _ (by simp) (by simp)
  | reset =>
    obtain ⟨_, hr, -⟩ := resetConfig_cases amb a
    rw [hr]
    exact hnone
  | sync =>
    unfold syncBlock
    dsimp only
    split
    · exact hone _ (by simp) (by simp)
    · exact hnone
  | _ => exact hnone

/-- As `invariant_step`, for small steps whose actions are among those of the whole step. -/
lemma invariant_step_within (Inv : PBFTEngine → Prop) {e : Event × Ambient}
    (hsmall : ∀ a b, SmallStep E e.2 s e.1 a b → b.log ⊆ (step E s e).log → Inv a → Inv b) (h : Inv s) :
    Inv (step E s e) := by
  have hrest : ∀ a, SmallSteps E e.2 s e.1 a (step E s e) →
      a.log ⊆ (step E s e).log ∧ (Inv a → Inv (step E s e)) := by
    intro a ha
    induction ha using Relation.ReflTransGen.head_induction_on with
    | refl => exact ⟨Subset.refl _, id⟩
    | head hab _ ih =>
      obtain ⟨l, hl, -⟩ := hab.logged
      exact ⟨fun x hx => ih.1 (hl ▸ mem_append_right l hx), fun ha => ih.2 (hsmall _ _ hab ih.1 ha)⟩
  exact (hrest s step_smallSteps).2 h

end PBFTEngine

end FiscoBcos
