import FiscoBcos.Lib.Run
import FiscoBcos.Pbft.FutureReqs
import FiscoBcos.Pbft.Handlers

/-!
# The small steps of the engine

Every event of the engine is a sequence of a few kinds of small steps. An invariant is proved once per kind of small step,
whatever the handler.
-/

namespace FiscoBcos

namespace PBFTEngine

open PartiallyPrepare PBFTReqCache PartiallyBlock List

section

variable (E : Env) (amb : Ambient) (s : PBFTEngine)

def countAndVote : PBFTEngine :=
  let q := s.sigCacheSize E
  if q.1 = q.2.minValidNodes ∧ q.2.reqCache.prepareCache.view = q.2.view then
    q.2.lockAndVote E amb
  else q.2

/-- The raw prepare replaced by an accepted proposal. One completed from transaction hashes on its arrival (`full =
false`) leaves the prepare cache in place. -/
def replaceRaw (full : Bool) (req : PrepareReq) : PBFTEngine :=
  { s with
    reqCache :=
      if full then s.reqCache.addRawPrepare req
      else s.reqCache.transPartiallyPrepareIntoRawPrepare req }

def accept (full : Bool) (req : PrepareReq) : PBFTEngine :=
  (s.replaceRaw full req).noteCall req

variable (req : PrepareReq)

def noteExecution (b result : Block) : PBFTEngine :=
  { s with
    reqCache := { s.reqCache with
      rawPrepareCache :=
        if req.pBlock.isSome then { s.reqCache.rawPrepareCache with pBlock := some result }
        else s.reqCache.rawPrepareCache } }.note (.execBlock req b)

def vote (result : Block) (context : Bool) : PBFTEngine :=
  { s with
    reqCache := s.reqCache.addPrepareReq req
      (req.executed E s.keyPair result context amb.executedStamp) }.broadcastSignReq E amb req

/-- Where the engine gets the proposals it handles: from a packet, from the future-prepare cache, from its lock, from
its sealer, or by completing a proposal of transaction hashes. -/
inductive Origin (s : PBFTEngine) : Event → PrepareReq → Prop where
  | packet {p : PBFTMsgPacket} {req : PrepareReq} (hkind : p.packetId = .PrepareReqPacket)
      (hdecode : decodeToPrepare p = some req) : Origin s (.handleMsg p) req
  | future {req : PrepareReq} (hmem : req ∈ s.reqCache.futurePrepareCache) : Origin s .handleFutureBlock req
  | reproposed (hlock : s.reqCache.committedPrepareCache.height = s.consensusBlockNumber) : Origin s .shouldSeal
        (PrepareReq.reproposed E s.keyPair s.view s.idx s.reqCache.committedPrepareCache amb.prepareStamp)
  | own (b : Block) : Origin s (.generatePrepare b) (s.constructPrepareReq E amb b)
  | hit {p : PBFTMsgPacket} {req : PrepareReq} {pb : PartiallyBlock} (hdecode : decodeToPrepare p = some req)
      (hproposal : decodeProposal E req.block = some pb)
      (hhit : (pb.initPartiallyBlock amb.pool).txsAllHit = true) :
      Origin s (.handlePartiallyPrepare p) (complete E ⟨{ req with isEmpty := false }, pb.initPartiallyBlock amb.pool⟩)
  | filled {resp : MissedTxsResponse} {p : PartiallyPrepare} {pb : PartiallyBlock}
      (hcached : s.reqCache.partiallyRawPrepare = some p ∨ s.reqCache.partiallyFuturePrepare = some p)
      (hfill : p.proposal.fillBlock E resp = some pb) :
      Origin s (.onReceiveMissedTxsResponse resp) (complete E { p with proposal := pb })

structure Execution (s : PBFTEngine) (req : PrepareReq) (b result : Block) (context : Bool) :
    Prop where
  proposed : proposedBlock E req = some b
  kept : ¬(b.transactions = [] ∧ s.omitEmptyBlock = true)
  valid : s.checkBlockValid E amb b = true
  result : executeBlock E amb.executingNumber (s.blockChain.headInfo E) b = (result, context)

def Voted : Prop :=
  ∃ b result context, Execution E amb s req b result context ∧
    E.verifySenders b.transactions = true ∧ (context = true ∨ b.transactions = [])

/-- `s` is `s₀` but for its clock, its log, the sealing flag and the partial raw prepare. -/
def Ready (s₀ s : PBFTEngine) : Prop :=
  ∃ t n l p, s = { s₀ with
      timeManager := t, notifyNextLeaderSeal := n, log := l
      reqCache := { s₀.reqCache with partiallyRawPrepare := p } }

end

def Takes (E : Env) (s : PBFTEngine) (e : Event × Ambient) (req : PrepareReq) : Prop :=
  Origin E e.2 s e.1 req ∧ s.isValidPrepare E e.2 req = .VALID

/-- What a view-change request has passed when it is cached. -/
structure ValidViewChange (E : Env) (s : PBFTEngine) (req : ViewChangeReq) : Prop where
  new : s.reqCache.isExistViewChange req = false
  idx : req.idx ≠ s.idx
  height : s.highestBlock.number ≤ req.height
  view : s.view < req.view
  hash : req.height = s.highestBlock.number → req.blockHash = E.headerHash s.highestBlock
  known : s.blockChain.getBlockByNumber req.height ≠ none
  sign : checkSign E s.sealerList req = true

/-- The packet is a view-change request to which the node answers with its own one: the sender is directly connected and
more than one view behind. -/
structure CatchesUp (s : PBFTEngine) (p : PBFTMsgPacket) (req : ViewChangeReq) : Prop where
  kind : p.packetId = .ViewChangeReqPacket
  decode : decodeToMsg p = some req
  new : s.reqCache.isExistViewChange req = false
  idx : req.idx ≠ s.idx
  height : s.highestBlock.number ≤ req.height
  behind : req.view + 1 < s.toView
  source : req.idx = p.nodeIdx
  sealer : getSealerByIndex s.sealerList req.idx ≠ 0

/-- How the view the node wants and its cached view-change requests change without a new request: not at all, for a
sender that is behind, after a timeout, or ahead of one. -/
inductive ViewMove (E : Env) (amb : Ambient) (s₀ : PBFTEngine) (e : Event) (s : PBFTEngine) :
    Int → List (Int × List ViewChangeReq) → List ViewChangeReq → Prop where
  | stay : ViewMove E amb s₀ e s s.toView s.reqCache.recvViewChangeReq s.reqCache.latestViewChangeReqCache
  | catchup (p : PBFTMsgPacket) (req : ViewChangeReq) (he : e = .handleMsg p) (hs : s = s₀)
      (hcatch : CatchesUp s p req) :
      ViewMove E amb s₀ e s s.toView s.reqCache.recvViewChangeReq
        (s.reqCache.latestViewChangeReqCache.filter fun r => r.idx != req.idx)
  | timeout (he : e = .checkTimeout) (hsent : ∃ l, s.log = .sendViewChangeReq
        ({ s with toView := s.toView + 1 }.viewChangeReq E amb) none :: l)
      (htoView : s.toView = s₀.toView) :
      ViewMove E amb s₀ e s (s.toView + 1)
        (s.reqCache.removeInvalidViewChange E (s.toView + 1) s.highestBlock).recvViewChangeReq
        (s.reqCache.removeInvalidViewChange E (s.toView + 1) s.highestBlock).latestViewChangeReqCache
  | fast (v : Int) (htrigger : s.reqCache.canTriggerViewChange s.f s.toView s.highestBlock
      s.consensusBlockNumber = (true, v)) :
      ViewMove E amb s₀ e s (v - 1) s.reqCache.recvViewChangeReq s.reqCache.latestViewChangeReqCache

/-- One small step of the handling of `e` that started in `s₀`. -/
inductive SmallStep (E : Env) (amb : Ambient) (s₀ : PBFTEngine) (e : Event) :
    PBFTEngine → PBFTEngine → Prop where
  /-- timers, flags, partial proposals; the remaining caches only lose entries -/
  | idle (s : PBFTEngine) (t : TimeManager) (lf nn fv : Bool) (tv : Int)
      (pr pf : Option PartiallyPrepare) (fp : List PrepareReq)
      (rv : List (Int × List ViewChangeReq)) (lv : List ViewChangeReq)
      (hfp : ∀ r ∈ fp, r ∈ s.reqCache.futurePrepareCache)
      (hrv : ∀ q ∈ rv, ∀ r ∈ q.2, ∃ q' ∈ s.reqCache.recvViewChangeReq, r ∈ q'.2)
      (hlv : ∀ r ∈ lv, r ∈ s.reqCache.latestViewChangeReqCache)
      (hmove : ViewMove E amb s₀ e s tv rv lv) :
      SmallStep E amb s₀ e s { s with
          timeManager := t, leaderFailed := lf, notifyNextLeaderSeal := nn, fastViewChange := fv
          toView := tv
          reqCache := { s.reqCache with
            partiallyRawPrepare := pr, partiallyFuturePrepare := pf, futurePrepareCache := fp
            recvViewChangeReq := rv, latestViewChangeReqCache := lv } }
  | propose (s : PBFTEngine) (req : PrepareReq) : SmallStep E amb s₀ e s (s.note (.broadcastPrepareReq req))
  | sendViewChange (s : PBFTEngine) (req : ViewChangeReq) (target : Option NodeID) :
      SmallStep E amb s₀ e s (s.note (.sendViewChangeReq req target))
  | cacheFuture (s : PBFTEngine) (req : PrepareReq) (ho : Origin E amb s₀ e req)
      (hv : s₀.isValidPrepare E amb req = .FUTURE ∨ ∃ resp, e = .onReceiveMissedTxsResponse resp) :
      SmallStep E amb s₀ e s { s with reqCache := { s.reqCache with
            futurePrepareCache := req :: s.reqCache.futurePrepareCache } }
  | accept (s : PBFTEngine) (full : Bool) (req : PrepareReq) (ho : Origin E amb s₀ e req)
      (hv : s₀.isValidPrepare E amb req = .VALID) (hready : Ready s₀ s)
      (hfull : full = false → ∃ p, e = .handlePartiallyPrepare p)
      (hfail : ∀ b result context, Execution E amb s₀ req b result context → E.verifySenders b.transactions = false) :
      SmallStep E amb s₀ e s (s.accept full req)
  | execute (s : PBFTEngine) (full : Bool) (req : PrepareReq) (b result : Block)
      (ho : Origin E amb s₀ e req) (hv : s₀.isValidPrepare E amb req = .VALID)
      (hready : Ready s₀ s) (hfull : full = false → ∃ p, e = .handlePartiallyPrepare p)
      (hexec : Execution E amb s₀ req b result false) (htx : b.transactions ≠ []) :
      SmallStep E amb s₀ e s ((s.accept full req).noteExecution req b result)
  | prepare (s : PBFTEngine) (full : Bool) (req : PrepareReq) (b result : Block) (context : Bool)
      (ho : Origin E amb s₀ e req) (hv : s₀.isValidPrepare E amb req = .VALID)
      (hready : Ready s₀ s) (hfull : full = false → ∃ p, e = .handlePartiallyPrepare p)
      (hexec : Execution E amb s₀ req b result context)
      (hcontext : context = true ∨ b.transactions = []) :
      SmallStep E amb s₀ e s ((((s.accept full req).noteExecution req b result).vote E amb req result
          context).countAndVote E amb)
  | signVote (s : PBFTEngine) (p : PBFTMsgPacket) (req : SignReq) (hs : s = s₀)
      (hidx : s.idx ≠ MAXIDX) (he : e = .handleMsg p) (hkind : p.packetId = .SignReqPacket)
      (hdecode : decodeToMsg p = some req) (hnew : s.reqCache.isExistSign req = false)
      (hcons : s.hasConsensused req = false) (hv : s.checkReq E amb req = .VALID) :
      SmallStep E amb s₀ e s ({ s with reqCache := s.reqCache.addSignReq req }.countAndVote E amb)
  | futureSign (s : PBFTEngine) (p : PBFTMsgPacket) (req : SignReq) (hs : s = s₀)
      (he : e = .handleMsg p) (hkind : p.packetId = .SignReqPacket)
      (hdecode : decodeToMsg p = some req) (hnew : s.reqCache.isExistSign req = false)
      (hcons : s.hasConsensused req = false) (hv : s.checkReq E amb req = .FUTURE) :
      SmallStep E amb s₀ e s { s with reqCache := s.reqCache.addSignReq (asFuture req) }
  | commitVote (s : PBFTEngine) (p : PBFTMsgPacket) (req : CommitReq) (hs : s = s₀)
      (he : e = .handleMsg p) (hkind : p.packetId = .CommitReqPacket)
      (hdecode : decodeToMsg p = some req) (hnew : s.reqCache.isExistCommit req = false)
      (hcons : s.hasConsensused req = false) (hv : s.checkReq E amb req = .VALID) :
      SmallStep E amb s₀ e s { s with reqCache := s.reqCache.addCommitReq req }
  | futureCommit (s : PBFTEngine) (p : PBFTMsgPacket) (req : CommitReq) (hs : s = s₀)
      (he : e = .handleMsg p) (hkind : p.packetId = .CommitReqPacket)
      (hdecode : decodeToMsg p = some req) (hnew : s.reqCache.isExistCommit req = false)
      (hcons : s.hasConsensused req = false) (hv : s.checkReq E amb req = .FUTURE) :
      SmallStep E amb s₀ e s { s with reqCache := s.reqCache.addCommitReq (asFuture req) }
  | save (s : PBFTEngine) : SmallStep E amb s₀ e s (s.checkAndSave E)
  | viewChangeVote (s : PBFTEngine) (p : PBFTMsgPacket) (req : ViewChangeReq)
      (he : e = .handleMsg p) (hkind : p.packetId = .ViewChangeReqPacket)
      (hdecode : decodeToMsg p = some req) (hsign : checkSign E s.sealerList req = true)
      (hvalid : ValidViewChange E s req)
      (hchain : s.blockChain = s₀.blockChain ∧ s.highestBlock = s₀.highestBlock) :
      SmallStep E amb s₀ e s { s with reqCache := s.reqCache.addViewChangeReq req s.blockChain.number }
  | changeView (s : PBFTEngine) (hcount : s.minValidNodes - 1 ≤ s.reqCache.getViewChangeSize s.toView % (MAXIDX + 1))
      (hidx : s.idx ≠ MAXIDX) :
      SmallStep E amb s₀ e s ({ s with
          view := s.toView
          reqCache := s.reqCache.triggerViewChange s.toView s.blockChain.number }.note
          (.changeView s.viewTally))
  | report (s : PBFTEngine) (b : Block) (hb : s.blockChain.getBlockByNumber b.header.number = some b) (hs : s = s₀)
      (he : e = .reportBlock b.header.number) :
      SmallStep E amb s₀ e s (s.reportBlockWithoutLock E amb b)
  | reset (s : PBFTEngine) (hs : s = s₀) (he : ∃ b, e = .checkBlock b) : SmallStep E amb s₀ e s (s.resetConfig amb)
  | sync (s : PBFTEngine) (b : Block) (hs : s = s₀) (he : e = .syncBlock b) : SmallStep E amb s₀ e s (s.syncBlock E b)
  | garbage (s : PBFTEngine) : SmallStep E amb s₀ e s { s with reqCache := s.reqCache.collectGarbage E s.highestBlock }

open Relation (ReflTransGen)

abbrev SmallSteps (E : Env) (amb : Ambient) (s₀ : PBFTEngine) (e : Event) : PBFTEngine → PBFTEngine → Prop :=
  ReflTransGen (SmallStep E amb s₀ e)

variable {E : Env} {amb : Ambient} {s₀ s : PBFTEngine} {e : Event}

lemma Ready.refl (s : PBFTEngine) : Ready s s :=
  ⟨s.timeManager, s.notifyNextLeaderSeal, s.log, s.reqCache.partiallyRawPrepare, rfl⟩

lemma Ready.trans {s₁ s₂ s₃ : PBFTEngine} (h₁ : Ready s₁ s₂) (h₂ : Ready s₂ s₃) : Ready s₁ s₃ := by
  obtain ⟨t, n, l, p, rfl⟩ := h₁
  obtain ⟨t', n', l', p', rfl⟩ := h₂
  exact ⟨t', n', l', p', rfl⟩

lemma Ready.isValidPrepare (E : Env) (amb : Ambient) (h : Ready s₀ s) (req : PrepareReq) :
    s.isValidPrepare E amb req = s₀.isValidPrepare E amb req := by
  obtain ⟨t, n, l, p, rfl⟩ := h
  rfl

lemma smallStep_flags (s : PBFTEngine) (t : TimeManager) (lf nn fv : Bool) : SmallStep E amb s₀ e s { s with
        timeManager := t, leaderFailed := lf, notifyNextLeaderSeal := nn, fastViewChange := fv } :=
  .idle s t lf nn fv s.toView s.reqCache.partiallyRawPrepare
    s.reqCache.partiallyFuturePrepare s.reqCache.futurePrepareCache s.reqCache.recvViewChangeReq
    s.reqCache.latestViewChangeReqCache (fun _ h => h) (fun q hq _ hr => ⟨q, hq, hr⟩) (fun _ h => h)
    .stay

lemma smallStep_partially (s : PBFTEngine) (pr pf : Option PartiallyPrepare) : SmallStep E amb s₀ e s
      { s with reqCache := { s.reqCache with
          partiallyRawPrepare := pr, partiallyFuturePrepare := pf } } :=
  .idle s s.timeManager s.leaderFailed s.notifyNextLeaderSeal s.fastViewChange s.toView pr pf
    s.reqCache.futurePrepareCache s.reqCache.recvViewChangeReq s.reqCache.latestViewChangeReqCache
    (fun _ h => h) (fun q hq _ hr => ⟨q, hq, hr⟩) (fun _ h => h) .stay

variable {t : PBFTEngine} {req : PrepareReq} {p : PBFTMsgPacket}

lemma checkAndCommit_smallSteps (h : SmallSteps E amb s₀ e t (s.countAndVote E amb)) :
    SmallSteps E amb s₀ e t (s.checkAndCommit E amb) := by
  unfold countAndVote at h
  unfold checkAndCommit
  by_cases hsize : (s.sigCacheSize E).1 = (s.sigCacheSize E).2.minValidNodes
  · by_cases hview : (s.sigCacheSize E).2.reqCache.prepareCache.view = (s.sigCacheSize E).2.view
    · rw [if_pos ⟨hsize, hview⟩] at h
      rw [if_pos hsize, if_neg (not_not.mpr hview)]
      exact h.tail (.save _)
    · rw [if_neg (fun hc => hview hc.2)] at h
      rw [if_pos hsize, if_pos hview]
      exact h
  · rw [if_neg (fun hc => hsize hc.1)] at h
    rw [if_neg hsize]
    exact h

lemma execBlock_spec (E : Env) (amb : Ambient) (s : PBFTEngine) (req : PrepareReq) :
    ∃ n, (execBlock E amb s req).2 = { s with notifyNextLeaderSeal := n } ∧
      match (execBlock E amb s req).1 with
      | .executed b result context => Execution E amb s req b result context
      | _ => ∀ b result context, Execution E amb s req b result context → E.verifySenders b.transactions = false := by
  unfold execBlock
  cases hblock : proposedBlock E req with
  | none =>
    refine ⟨s.notifyNextLeaderSeal, rfl, ?_⟩
    intro b result context h
    exact absurd (hblock.symm.trans h.proposed) (by simp)
  | some b =>
    have heq : ∀ b' result context, Execution E amb s req b' result context → b' = b := by
      intro b' result context h
      exact Option.some.inj (h.proposed.symm.trans hblock)
    dsimp only
    by_cases hempty : b.transactions = [] ∧ s.omitEmptyBlock = true
    · rw [if_pos hempty]
      refine ⟨s.notifyNextLeaderSeal, rfl, ?_⟩
      intro b' result context h
      obtain rfl := heq b' result context h
      exact absurd hempty h.kept
    · rw [if_neg hempty]
      by_cases hvalid : s.checkBlockValid E amb b = true
      · rw [if_neg (by simp [hvalid])]
        have hflag : ∃ n, (if req.idx ≠ s.idx then s.notifySealing else s) = { s with notifyNextLeaderSeal := n } := by
          unfold notifySealing
          split
          · split
            · exact ⟨true, rfl⟩
            · exact ⟨s.notifyNextLeaderSeal, rfl⟩
          · exact ⟨s.notifyNextLeaderSeal, rfl⟩
        obtain ⟨n, hn⟩ := hflag
        rw [hn]
        refine ⟨n, ?_, ?_⟩
        · split <;> rfl
        by_cases hsenders : E.verifySenders b.transactions = true
        · rw [if_neg (by simp [hsenders])]
          exact ⟨hblock, hempty, hvalid, rfl⟩
        rw [if_pos (by simpa using hsenders)]
        intro b' result context h
        obtain rfl := heq b' result context h
        simpa using hsenders
      · rw [if_pos (by simpa using hvalid)]
        refine ⟨s.notifyNextLeaderSeal, rfl, ?_⟩
        intro b' result context h
        obtain rfl := heq b' result context h
        exact absurd h.valid hvalid

lemma execution_accept {full : Bool} {t : TimeManager} {b result : Block} {context : Bool} (hready : Ready s₀ s) :
    Execution E amb { s.accept full req with timeManager := t } req b result context ↔
      Execution E amb s₀ req b result context := by
  obtain ⟨t', n, l, p, rfl⟩ := hready
  constructor <;> exact fun h => ⟨h.proposed, h.kept, h.valid, h.result⟩

lemma execPrepareAndGenerateSignMsg_smallSteps (full : Bool)
    (ho : Origin E amb s₀ e req) (hv : s₀.isValidPrepare E amb req = .VALID)
    (hready : Ready s₀ s) (hfull : full = false → ∃ p, e = .handlePartiallyPrepare p) :
    SmallSteps E amb s₀ e s ((s.replaceRaw full req).execPrepareAndGenerateSignMsg E amb req) := by
  have hflags : ∀ (t : TimeManager) (n fv : Bool), SmallSteps E amb s₀ e s
      { s with timeManager := t, notifyNextLeaderSeal := n, fastViewChange := fv } := by
    intro t n fv
    exact .single (smallStep_flags s t s.leaderFailed n fv)
  have hready' : ∀ (t : TimeManager) (n : Bool), Ready s₀ { s with timeManager := t, notifyNextLeaderSeal := n } := by
    intro t n
    exact hready.trans ⟨t, n, s.log, s.reqCache.partiallyRawPrepare, rfl⟩
  let t₁ : TimeManager := { s.timeManager with lastAddRawPrepareTime := amb.steadyTime }
  let t₂ : TimeManager := { t₁ with lastExecTime := amb.steadyTime }
  unfold execPrepareAndGenerateSignMsg
  rw [show (s.replaceRaw full req).noteCall req = s.accept full req from rfl]
  obtain ⟨n, hs', hout⟩ := execBlock_spec E amb { s.accept full req with
      timeManager := { (s.accept full req).timeManager with
        lastAddRawPrepareTime := amb.steadyTime } } req
  dsimp only
  cases hexec : execBlock E amb { s.accept full req with
      timeManager := { (s.accept full req).timeManager with
        lastAddRawPrepareTime := amb.steadyTime } } req with
  | mk outcome =>
    rw [hexec] at hs' hout
    subst hs'
    cases outcome with
    | failed =>
      refine (hflags t₁ n s.fastViewChange).tail ?_
      exact .accept _ full req ho hv (hready' t₁ n) hfull fun b result context h =>
        hout b result context ((execution_accept hready).mpr h)
    | omitted =>
      have haccept := SmallStep.accept _ full req ho hv (hready' t₁ n) hfull
        fun b result context h => hout b result context ((execution_accept hready).mpr h)
      exact ((hflags t₁ n s.fastViewChange).tail haccept).tail (smallStep_flags _
        { t₂.changeView with changeCycle := 0 } s.leaderFailed n true)
    | executed b result context =>
      have hx := (execution_accept hready).mp hout
      dsimp only
      split
      · rename_i hbad
        obtain ⟨rfl, htx⟩ := hbad
        refine (hflags t₂ n s.fastViewChange).tail ?_
        exact .execute _ full req b result ho hv (hready' t₂ n) hfull hx htx
      rename_i hgood
      have hcontext : context = true ∨ b.transactions = [] := by
        cases context with
        | true => exact .inl rfl
        | false => exact .inr (by simpa using hgood)
      refine checkAndCommit_smallSteps ((hflags t₂ n s.fastViewChange).tail ?_)
      exact .prepare _ full req b result context ho hv (hready' t₂ n) hfull hx hcontext

lemma addFuturePrepareCache_smallSteps (ho : Origin E amb s₀ e req)
    (hv : s₀.isValidPrepare E amb req = .FUTURE ∨ ∃ resp, e = .onReceiveMissedTxsResponse resp)
    (h : SmallSteps E amb s₀ e t s) : SmallSteps E amb s₀ e t { s with reqCache := s.reqCache.addFuturePrepareCache req } := by
  unfold addFuturePrepareCache
  split
  · exact h
  · split
    · exact h
    · exact h.tail (.cacheFuture s req ho hv)

lemma handlePrepareMsg_smallSteps (ho : Origin E amb s₀ e req) (hready : Ready s₀ s) :
    SmallSteps E amb s₀ e s (s.handlePrepareMsg E amb req) := by
  have hvalid := hready.isValidPrepare E amb req
  unfold handlePrepareMsg
  cases hv : s₀.isValidPrepare E amb req with
  | INVALID => rw [hvalid, hv]
  | FUTURE =>
    rw [hvalid, hv]
    exact addFuturePrepareCache_smallSteps ho (.inl hv) .refl
  | VALID =>
    rw [hvalid, hv]
    exact execPrepareAndGenerateSignMsg_smallSteps true ho hv hready (by simp)

lemma handleFutureBlock_smallSteps : SmallSteps E amb s .handleFutureBlock s (s.handleFutureBlock E amb) := by
  unfold handleFutureBlock
  cases hr : s.reqCache.futurePrepare? s.consensusBlockNumber with
  | none => exact .refl
  | some r =>
    dsimp only
    split
    · have ho : Origin E amb s .handleFutureBlock r := .future (mem_of_find?_eq_some hr)
      refine (handlePrepareMsg_smallSteps ho (.refl s)).tail ?_
      exact .idle _ _ _ _ _ _ _ _ _ _ _ (fun r h => (mem_filter.mp h).1)
        (fun q hq _ hr => ⟨q, hq, hr⟩) (fun _ h => h) .stay
    · exact .refl

lemma shouldSeal_smallSteps : SmallSteps E amb s .shouldSeal s (s.shouldSeal E amb).2 := by
  unfold shouldSeal
  split
  · exact .refl
  cases s.getLeader with
  | none => exact .refl
  | some =>
    dsimp only
    split
    · exact .refl
    split
    · rename_i hlock
      split
      · refine .head (.propose s (PrepareReq.reproposed E s.keyPair s.view s.idx s.reqCache.committedPrepareCache
            amb.prepareStamp)) ?_
        exact handlePrepareMsg_smallSteps (.reproposed hlock)
          ⟨s.timeManager, s.notifyNextLeaderSeal, _, s.reqCache.partiallyRawPrepare, rfl⟩
      · exact .refl
    · exact .refl

lemma generatePrepare_smallSteps (b : Block) :
    SmallSteps E amb s (.generatePrepare b) s (s.generatePrepare E amb b) := by
  unfold generatePrepare
  dsimp only
  split
  · refine (ReflTransGen.single (.propose s (s.constructPrepareReq E amb b))).tail ?_
    exact smallStep_flags _ _ true false true
  · refine .head (.propose s (s.constructPrepareReq E amb b))
      (.head (smallStep_flags _ s.timeManager s.leaderFailed false s.fastViewChange) ?_)
    exact handlePrepareMsg_smallSteps (.own b) ⟨s.timeManager, false, _, s.reqCache.partiallyRawPrepare, rfl⟩

lemma handlePartiallyPrepare_smallSteps (hdecode : decodeToPrepare p = some req) :
    SmallSteps E amb s (.handlePartiallyPrepare p) s
      (s.handlePartiallyPrepare E amb { req with isEmpty := false }) := by
  unfold handlePartiallyPrepare
  cases hv : s.isValidPrepare E amb { req with isEmpty := false } with
  | INVALID => exact .refl
  | FUTURE =>
    cases hpb : decodeProposal E req.block with
    | none => exact .refl
    | some =>
      dsimp only
      split
      · rename_i hhit
        exact addFuturePrepareCache_smallSteps (.hit hdecode hpb hhit) (.inl hv) .refl
      unfold addPartiallyFuturePrepare
      split
      · exact .single (smallStep_partially s _ _)
      · split
        · exact .single (smallStep_partially s _ _)
        · exact .refl
  | VALID =>
    dsimp only
    split
    · exact .refl
    cases hpb : decodeProposal E req.block with
    | none => exact .single (smallStep_partially s _ _)
    | some =>
      dsimp only
      split
      · rename_i hhit
        exact execPrepareAndGenerateSignMsg_smallSteps false (.hit hdecode hpb hhit) hv (.refl s) (fun _ => ⟨p, rfl⟩)
      · exact .single (smallStep_partially s _ _)

lemma onReceiveMissedTxsResponse_smallSteps (resp : MissedTxsResponse) :
    SmallSteps E amb s (.onReceiveMissedTxsResponse resp) s (s.onReceiveMissedTxsResponse E amb resp) := by
  unfold onReceiveMissedTxsResponse
  split
  · rename_i p hp
    have hcached := Option.eq_some_of_filter_eq_some hp
    cases hfill : p.proposal.fillBlock E resp with
    | none => exact .refl
    | some =>
      exact addFuturePrepareCache_smallSteps (.filled (.inr hcached) hfill) (.inr ⟨resp, rfl⟩)
        (.single (smallStep_partially s s.reqCache.partiallyRawPrepare none))
  · split
    · exact .refl
    rename_i p hp
    cases hfill : p.proposal.fillBlock E resp with
    | none => exact .refl
    | some pb =>
      dsimp only
      have hready : Ready s { s with
            reqCache := { s.reqCache with
              partiallyRawPrepare :=
                some ⟨complete E { p with proposal := pb }, pb⟩ } } :=
        ⟨s.timeManager, s.notifyNextLeaderSeal, s.log, _, rfl⟩
      have ho : Origin E amb s (.onReceiveMissedTxsResponse resp)
          (complete E { p with proposal := pb }) := .filled (.inl hp) hfill
      have hhandle := (ReflTransGen.single (smallStep_partially s (some ⟨complete E { p with proposal := pb }, pb⟩)
        s.reqCache.partiallyFuturePrepare)).trans
        (handlePrepareMsg_smallSteps ho hready)
      split
      · exact hhandle.tail (smallStep_partially _ _ _)
      · exact hhandle

lemma handleSignMsg_smallSteps {req : SignReq} (hidx : s.idx ≠ MAXIDX) (hkind : p.packetId = .SignReqPacket)
    (hdecode : decodeToMsg p = some req) : SmallSteps E amb s (.handleMsg p) s (s.handleSignMsg E amb req) := by
  unfold handleSignMsg
  split
  · exact .refl
  rename_i hnew
  split
  · exact .refl
  rename_i hcons
  rw [Bool.not_eq_true] at hnew hcons
  cases hv : s.checkReq E amb req with
  | INVALID => exact .refl
  | FUTURE =>
    have hstep : SmallStep E amb s (.handleMsg p) s _ := .futureSign s p req rfl rfl hkind hdecode hnew hcons hv
    exact .single hstep
  | VALID =>
    have hstep : SmallStep E amb s (.handleMsg p) s _ := .signVote s p req rfl hidx rfl hkind hdecode hnew hcons hv
    exact checkAndCommit_smallSteps (.single hstep)

lemma handleCommitMsg_smallSteps {req : CommitReq} (hkind : p.packetId = .CommitReqPacket)
    (hdecode : decodeToMsg p = some req) : SmallSteps E amb s (.handleMsg p) s (s.handleCommitMsg E amb req) := by
  unfold handleCommitMsg
  split
  · exact .refl
  rename_i hnew
  split
  · exact .refl
  rename_i hcons
  rw [Bool.not_eq_true] at hnew hcons
  cases hv : s.checkReq E amb req with
  | INVALID => exact .refl
  | FUTURE =>
    have hstep : SmallStep E amb s (.handleMsg p) s _ := .futureCommit s p req rfl rfl hkind hdecode hnew hcons hv
    exact .single hstep
  | VALID =>
    have hstep : SmallStep E amb s (.handleMsg p) s _ := .commitVote s p req rfl rfl hkind hdecode hnew hcons hv
    exact (ReflTransGen.single hstep).tail (.save _)

/-- `t` differs from `s` at most in its caches, its log, its timers and its flags. -/
structure Frame (s t : PBFTEngine) : Prop where
  keyPair : t.keyPair = s.keyPair
  omitEmptyBlock : t.omitEmptyBlock = s.omitEmptyBlock
  maxBlockTransactions : t.maxBlockTransactions = s.maxBlockTransactions
  sealerList : t.sealerList = s.sealerList
  nodeNum : t.nodeNum = s.nodeNum
  f : t.f = s.f
  idx : t.idx = s.idx
  cfgErr : t.cfgErr = s.cfgErr
  consensusBlockNumber : t.consensusBlockNumber = s.consensusBlockNumber
  highestBlock : t.highestBlock = s.highestBlock
  view : t.view = s.view
  blockChain : t.blockChain = s.blockChain

lemma Frame.refl (s : PBFTEngine) : Frame s s :=
  ⟨rfl, rfl, rfl, rfl, rfl, rfl, rfl, rfl, rfl, rfl, rfl, rfl⟩

lemma Frame.trans {u : PBFTEngine} (h : Frame s t) (h' : Frame t u) : Frame s u :=
  ⟨h'.1.trans h.1, h'.2.trans h.2, h'.3.trans h.3, h'.4.trans h.4, h'.5.trans h.5, h'.6.trans h.6,
    h'.7.trans h.7, h'.8.trans h.8, h'.9.trans h.9, h'.10.trans h.10, h'.11.trans h.11,
    h'.12.trans h.12⟩

lemma checkAndChangeView_smallSteps (hidx : s.idx ≠ MAXIDX) (h : SmallSteps E amb s₀ e t s) :
    SmallSteps E amb s₀ e t (s.checkAndChangeView amb) := by
  unfold checkAndChangeView
  split
  · rename_i hcount
    refine (h.tail (.changeView s hcount hidx)).tail ?_
    exact smallStep_flags _ _ false false _
  · exact h

section

variable {req : ViewChangeReq}

lemma catchupView_smallSteps (hkind : p.packetId = .ViewChangeReqPacket)
    (hdecode : decodeToMsg p = some req) (hnew : s.reqCache.isExistViewChange req = false) (hidx : req.idx ≠ s.idx)
    (hheight : s.highestBlock.number ≤ req.height) (hbehind : req.view + 1 < s.toView) (hsource : req.idx = p.nodeIdx) :
    SmallSteps E amb s (.handleMsg p) s (s.catchupView E amb req) := by
  unfold catchupView
  split
  · rename_i hsealer
    refine (ReflTransGen.single (SmallStep.idle s s.timeManager s.leaderFailed
      s.notifyNextLeaderSeal s.fastViewChange s.toView s.reqCache.partiallyRawPrepare
      s.reqCache.partiallyFuturePrepare s.reqCache.futurePrepareCache s.reqCache.recvViewChangeReq
      (s.reqCache.latestViewChangeReqCache.filter fun r => r.idx != req.idx)
      (fun _ h => h) (fun q hq _ hr => ⟨q, hq, hr⟩) (fun r h => (mem_filter.mp h).1) ?_)).tail ?_
    · exact .catchup p req rfl rfl ⟨hkind, hdecode, hnew, hidx, hheight, hbehind, hsource, hsealer⟩
    · exact .sendViewChange _ _ _
  · exact .refl

lemma catchupView_fields : ∃ lv l, s.catchupView E amb req =
      { s with log := l, reqCache := { s.reqCache with latestViewChangeReqCache := lv } } := by
  unfold catchupView
  split
  · exact ⟨_, _, rfl⟩
  · exact ⟨s.reqCache.latestViewChangeReqCache, s.log, rfl⟩

lemma isValidViewChangeReq_smallSteps (hkind : p.packetId = .ViewChangeReqPacket) (hdecode : decodeToMsg p = some req) :
    SmallSteps E amb s (.handleMsg p) s (s.isValidViewChangeReq E amb req p.nodeIdx).2 ∧
      Frame s (s.isValidViewChangeReq E amb req p.nodeIdx).2 ∧ ((s.isValidViewChangeReq E amb req p.nodeIdx).1 = true →
        ValidViewChange E (s.isValidViewChangeReq E amb req p.nodeIdx).2 req) := by
  unfold isValidViewChangeReq
  split
  · exact ⟨.refl, .refl s, by simp⟩
  rename_i hnew
  rw [Bool.not_eq_true] at hnew
  split
  · exact ⟨.refl, .refl s, by simp⟩
  rename_i hidx
  split
  · exact ⟨.refl, .refl s, by simp⟩
  rename_i hheight
  rw [not_lt] at hheight
  have hcatch : SmallSteps E amb s (.handleMsg p) s
      (if req.view + 1 < s.toView ∧ req.idx = p.nodeIdx then s.catchupView E amb req else s) := by
    split
    · rename_i hbranch
      exact catchupView_smallSteps hkind hdecode hnew hidx hheight hbranch.1 hbranch.2
    · exact .refl
  have hfields : ∃ lv l, (if req.view + 1 < s.toView ∧ req.idx = p.nodeIdx then s.catchupView E amb req else s) =
        { s with log := l, reqCache := { s.reqCache with latestViewChangeReqCache := lv } } := by
    split
    · exact catchupView_fields
    · exact ⟨s.reqCache.latestViewChangeReqCache, s.log, rfl⟩
  obtain ⟨lv, l, heq⟩ := hfields
  dsimp only
  rw [heq] at hcatch ⊢
  have hframe : Frame s { s with log := l, reqCache := { s.reqCache with latestViewChangeReqCache := lv } } :=
    ⟨rfl, rfl, rfl, rfl, rfl, rfl, rfl, rfl, rfl, rfl, rfl, rfl⟩
  split
  · exact ⟨hcatch, hframe, by simp⟩
  rename_i hview
  split
  · exact ⟨hcatch, hframe, by simp⟩
  rename_i hblock
  rw [not_or, not_and, not_not] at hblock
  exact ⟨hcatch, hframe, fun hsign =>
    ⟨hnew, hidx, hheight, not_le.mp hview, hblock.1, hblock.2, hsign⟩⟩

lemma handleViewChangeMsg_smallSteps
    (hidx : s.idx ≠ MAXIDX) (hkind : p.packetId = .ViewChangeReqPacket) (hdecode : decodeToMsg p = some req) :
    SmallSteps E amb s (.handleMsg p) s (s.handleViewChangeMsg E amb req p.nodeIdx) := by
  obtain ⟨hcheck, hframe, hvalid⟩ := isValidViewChangeReq_smallSteps hkind hdecode
  unfold handleViewChangeMsg
  dsimp only
  split
  · rename_i htrue
    have hv := hvalid htrue
    have hadd := hcheck.tail (.viewChangeVote _ p req rfl hkind hdecode hv.sign hv
      ⟨hframe.blockChain, hframe.highestBlock⟩)
    split
    · exact checkAndChangeView_smallSteps (hframe.idx.trans_ne hidx) hadd
    split
    · rename_i htrigger
      refine hadd.tail ?_
      exact .idle _ _ _ _ true _ _ _ _ _ _ (fun _ h => h) (fun q hq _ hr => ⟨q, hq, hr⟩) (fun _ h => h)
        (.fast _ (Prod.ext htrigger rfl))
    · exact hadd
  · exact hcheck

end

lemma checkTimeout_smallSteps (hidx : s.idx ≠ MAXIDX) : SmallSteps E amb s .checkTimeout s (s.checkTimeout E amb) := by
  have hmem : ∀ q ∈ (s.reqCache.removeInvalidViewChange E (s.toView + 1) s.highestBlock).recvViewChangeReq, ∀ r ∈ q.2,
      ∃ q' ∈ s.reqCache.recvViewChangeReq, r ∈ q'.2 := by
    unfold removeInvalidViewChange
    split
    · exact fun q hq r hr => ⟨q, hq, hr⟩
    intro q hq r hr
    obtain ⟨q', hq', rfl⟩ := mem_map.mp hq
    split at hr
    · exact ⟨q', hq', (mem_filter.mp hr).1⟩
    · exact ⟨q', hq', hr⟩
  have hlatest : ∀ r ∈ (s.reqCache.removeInvalidViewChange E (s.toView + 1)
      s.highestBlock).latestViewChangeReqCache, r ∈ s.reqCache.latestViewChangeReqCache := by
    unfold removeInvalidViewChange
    split
    · exact fun r hr => hr
    · exact fun r hr => (mem_filter.mp hr).1
  have hcache : s.reqCache.removeInvalidViewChange E (s.toView + 1) s.highestBlock = { s.reqCache with
        recvViewChangeReq := (s.reqCache.removeInvalidViewChange E (s.toView + 1) s.highestBlock).recvViewChangeReq
        latestViewChangeReqCache := (s.reqCache.removeInvalidViewChange E (s.toView + 1)
          s.highestBlock).latestViewChangeReqCache } := by
    unfold removeInvalidViewChange
    split <;> rfl
  unfold checkTimeout
  split
  · dsimp only
    rw [hcache]
    -- the request is sent with the new view already in place
    refine checkAndChangeView_smallSteps hidx ((ReflTransGen.single (.sendViewChange s
        ({ s with toView := s.toView + 1 }.viewChangeReq E amb) none)).tail ?_)
    exact .idle _ _ true s.notifyNextLeaderSeal _ (s.toView + 1)
      s.reqCache.partiallyRawPrepare s.reqCache.partiallyFuturePrepare s.reqCache.futurePrepareCache
      _ _ (fun _ h => h) hmem hlatest (.timeout rfl ⟨s.log, rfl⟩ rfl)
  · exact .refl

lemma handleMsg_smallSteps (p : PBFTMsgPacket) (hidx : s.idx ≠ MAXIDX) :
    SmallSteps E amb s (.handleMsg p) s (s.handleMsg E amb p) := by
  unfold handleMsg
  split
  · rename_i hkind
    cases hd : decodeToPrepare p with
    | none => exact .refl
    | some => exact handlePrepareMsg_smallSteps (.packet hkind hd) (.refl s)
  · rename_i hkind
    cases hd : decodeToMsg p with
    | none => exact .refl
    | some => exact handleSignMsg_smallSteps hidx hkind hd
  · rename_i hkind
    cases hd : decodeToMsg p with
    | none => exact .refl
    | some => exact handleCommitMsg_smallSteps hkind hd
  · rename_i hkind
    cases hd : decodeToMsg p with
    | none => exact .refl
    | some => exact handleViewChangeMsg_smallSteps hidx hkind hd

lemma reportBlock_smallSteps {number : Int} : SmallSteps E amb s (.reportBlock number) s
      (s.reportBlock E amb number) := by
  unfold reportBlock
  cases hb : s.blockChain.getBlockByNumber number with
  | none => exact .refl
  | some b =>
    have hnumber := (BlockChain.number_of_getBlockByNumber hb).1
    exact .single (.report s b (hnumber ▸ hb) rfl (by rw [hnumber]))

lemma checkBlock_smallSteps (b : Block) : SmallSteps E amb s (.checkBlock b) s (s.checkBlock E amb b).2 := by
  unfold checkBlock
  dsimp only
  split
  · exact .refl
  · have hreset : SmallSteps E amb s (.checkBlock b) s (s.resetConfig amb) := .single (.reset s rfl ⟨b, rfl⟩)
    split_ifs <;> exact hreset

/-- Every event of the engine is a sequence of small steps. -/
theorem step_smallSteps : SmallSteps E amb s e s (step E s (e, amb)) := by
  cases e with
  | handleMsg p =>
    unfold step
    dsimp only
    split
    · exact .refl
    · rename_i hidx
      exact handleMsg_smallSteps p hidx
  | handlePartiallyPrepare p =>
    unfold step
    dsimp only
    split
    · cases hd : decodeToPrepare p with
      | none => exact .refl
      | some => exact handlePartiallyPrepare_smallSteps hd
    · exact .refl
  | onReceiveMissedTxsResponse resp =>
    unfold step
    dsimp only
    split
    · exact onReceiveMissedTxsResponse_smallSteps resp
    · exact .refl
  | checkTimeout =>
    unfold step
    dsimp only
    split
    · exact .refl
    · rename_i hidx
      exact checkTimeout_smallSteps hidx
  | handleFutureBlock =>
    unfold step
    dsimp only
    split
    · exact .refl
    · exact handleFutureBlock_smallSteps
  | collectGarbage =>
    unfold step collectGarbage
    dsimp only
    split
    · exact .refl
    split
    · refine (ReflTransGen.single (.garbage s)).tail ?_
      exact smallStep_flags _ _ s.leaderFailed s.notifyNextLeaderSeal s.fastViewChange
    · exact .refl
  | generatePrepare b => exact generatePrepare_smallSteps b
  | shouldSeal => exact shouldSeal_smallSteps
  | reportBlock => exact reportBlock_smallSteps
  | checkBlock b => exact checkBlock_smallSteps b
  | syncBlock b => exact .single (.sync s b rfl rfl)

end PBFTEngine

end FiscoBcos
