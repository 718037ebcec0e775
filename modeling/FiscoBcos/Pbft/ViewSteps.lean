import FiscoBcos.Pbft.Basics

/-!
# The small steps as the view change sees them

Most small steps leave the views, the cached view-change requests and the configuration alone.
`ViewStep` sorts the others out.
-/

namespace FiscoBcos

namespace PBFTEngine

/-- `b` has the sealers, the views and the head of `a`, and the view has not changed on the way. -/
structure SameViews (a b : PBFTEngine) : Prop where
  keyPair : b.keyPair = a.keyPair
  sealerList : b.sealerList = a.sealerList
  nodeNum : b.nodeNum = a.nodeNum
  f : b.f = a.f
  idx : b.idx = a.idx
  view : b.view = a.view
  toView : b.toView = a.toView
  highestBlock : b.highestBlock = a.highestBlock
  log : ∃ l, b.log = l ++ a.log ∧ ∀ t, .changeView t ∉ l

/-- `b` has the cached view-change requests of `a`, too. -/
structure ViewFrame (a b : PBFTEngine) : Prop extends SameViews a b where
  consensusBlockNumber : b.consensusBlockNumber = a.consensusBlockNumber
  recvViewChangeReq : b.reqCache.recvViewChangeReq = a.reqCache.recvViewChangeReq
  latestViewChangeReqCache : b.reqCache.latestViewChangeReqCache = a.reqCache.latestViewChangeReqCache

lemma ViewFrame.refl (s : PBFTEngine) : ViewFrame s s :=
  ⟨⟨rfl, rfl, rfl, rfl, rfl, rfl, rfl, rfl, [], rfl, by simp⟩, rfl, rfl, rfl⟩

lemma ViewFrame.trans {a b c : PBFTEngine} (h : ViewFrame a b) (h' : ViewFrame b c) : ViewFrame a c := by
  obtain ⟨l, hl, hno⟩ := h.log
  obtain ⟨l', hl', hno'⟩ := h'.log
  refine ⟨⟨h'.keyPair.trans h.keyPair, h'.sealerList.trans h.sealerList, h'.nodeNum.trans h.nodeNum,
    h'.f.trans h.f, h'.idx.trans h.idx, h'.view.trans h.view, h'.toView.trans h.toView,
    h'.highestBlock.trans h.highestBlock, l' ++ l, ?_, ?_⟩, h'.2.trans h.2, h'.3.trans h.3, h'.4.trans h.4⟩
  · rw [hl', hl, List.append_assoc]
  · intro t hmem
    rcases List.mem_append.mp hmem with hnew | hold
    · exact hno' t hnew
    · exact hno t hold

def withViewChanges (s : PBFTEngine) (tv : Int) (rv : List (Int × List ViewChangeReq))
    (lv : List ViewChangeReq) : PBFTEngine :=
  { s with
    toView := tv
    reqCache := { s.reqCache with recvViewChangeReq := rv, latestViewChangeReqCache := lv } }

/-- One small step of the handling of `e` that started in `s₀`, as the view change sees it. -/
inductive ViewStep (E : Env) (amb : Ambient) (s₀ : PBFTEngine) (e : Event) (a : PBFTEngine) :
    PBFTEngine → Prop where
  | move (b : PBFTEngine) (tv : Int) (rv : List (Int × List ViewChangeReq)) (lv : List ViewChangeReq)
      (hmove : ViewMove E amb s₀ e a tv rv lv) (hframe : ViewFrame (a.withViewChanges tv rv lv) b) :
      ViewStep E amb s₀ e a b
  | vote (p : PBFTMsgPacket) (req : ViewChangeReq) (he : e = .handleMsg p)
      (hkind : p.packetId = .ViewChangeReqPacket) (hdecode : decodeToMsg p = some req)
      (hvalid : ValidViewChange E a req)
      (hchain : a.blockChain = s₀.blockChain ∧ a.highestBlock = s₀.highestBlock) :
      ViewStep E amb s₀ e a { a with reqCache := a.reqCache.addViewChangeReq req a.blockChain.number }
  | change (hcount : a.minValidNodes - 1 ≤ a.reqCache.getViewChangeSize a.toView % (MAXIDX + 1))
      (hidx : a.idx ≠ MAXIDX) :
      ViewStep E amb s₀ e a ({ a with
          view := a.toView
          reqCache := a.reqCache.triggerViewChange a.toView a.blockChain.number }.note
          (.changeView a.viewTally))
  | report (bl : Block) (hb : a.blockChain.getBlockByNumber bl.header.number = some bl) (hs : a = s₀)
      (he : e = .reportBlock bl.header.number) :
      ViewStep E amb s₀ e a (a.reportBlockWithoutLock E amb bl)
  | reset (hs : a = s₀) (he : ∃ bl, e = .checkBlock bl) : ViewStep E amb s₀ e a (a.resetConfig amb)
  | garbage : ViewStep E amb s₀ e a { a with reqCache := a.reqCache.collectGarbage E a.highestBlock }

variable {E : Env} {amb : Ambient} {s₀ a b : PBFTEngine} {e : Event} {req : PrepareReq} {result : Block} {full : Bool}
  {bl : Block} {c : PBFTReqCache} {context : Bool}

section

variable (s : PBFTEngine)

lemma viewFrame_reqCache (hrecv : c.recvViewChangeReq = s.reqCache.recvViewChangeReq)
    (hlatest : c.latestViewChangeReqCache = s.reqCache.latestViewChangeReqCache) : ViewFrame s { s with reqCache := c } :=
  ⟨⟨rfl, rfl, rfl, rfl, rfl, rfl, rfl, rfl, [], rfl, by simp⟩, rfl, hrecv, hlatest⟩

lemma viewFrame_note {x : Action} (hx : ∀ t, x ≠ .changeView t) : ViewFrame s (s.note x) := by
  refine ⟨⟨rfl, rfl, rfl, rfl, rfl, rfl, rfl, rfl, [x], rfl, fun t hmem => ?_⟩, rfl, rfl, rfl⟩
  exact hx t (List.mem_singleton.mp hmem).symm

lemma viewFrame_accept : ViewFrame s (s.accept full req) := by
  refine ⟨⟨rfl, rfl, rfl, rfl, rfl, rfl, rfl, rfl, [], rfl, by simp⟩, rfl, ?_, ?_⟩ <;> rw [accept_reqCache]

lemma viewFrame_noteExecution : ViewFrame s (s.noteExecution req bl result) :=
  ⟨⟨rfl, rfl, rfl, rfl, rfl, rfl, rfl, rfl, [.execBlock req bl], rfl, by simp⟩, rfl, rfl, rfl⟩

lemma prepareFor_toView : (s.prepareFor E amb full req bl result context).toView = s.toView := by
  unfold prepareFor vote broadcastSignReq noteExecution accept noteCall replaceRaw note
  dsimp only

lemma lockAndVote_toView : (s.lockAndVote E amb).toView = s.toView := by
  unfold lockAndVote broadcastCommitReq note
  dsimp only

lemma viewFrame_prepareFor : ViewFrame s (s.prepareFor E amb full req bl result context) := by
  have hframe : Frame s (s.prepareFor E amb full req bl result context) := frame_prepareFor s full req bl result context
  refine ⟨⟨hframe.keyPair, hframe.sealerList, hframe.nodeNum, hframe.f, hframe.idx, hframe.view, prepareFor_toView s,
    hframe.highestBlock, [_, _], prepareFor_log, by simp⟩, hframe.consensusBlockNumber, ?_, ?_⟩ <;>
    rw [prepareFor_reqCache]

lemma viewFrame_lockAndVote : ViewFrame s (s.lockAndVote E amb) := by
  have hframe : Frame s (s.lockAndVote E amb) := frame_lockAndVote
  refine ⟨⟨hframe.keyPair, hframe.sealerList, hframe.nodeNum, hframe.f, hframe.idx, hframe.view, lockAndVote_toView s,
    hframe.highestBlock, [_, _, _], lockAndVote_log s, by simp⟩, hframe.consensusBlockNumber, ?_, ?_⟩ <;>
    rw [lockAndVote_reqCache]

lemma viewFrame_countAndVote : ViewFrame s (s.countAndVote E amb) := by
  have hsigns : ∀ m, ViewFrame s (s.withSigns m) := fun m => viewFrame_reqCache s rfl rfl
  obtain ⟨m, -, hc | ⟨-, -, hc⟩⟩ := countAndVote_cases
  · rw [hc]
    exact hsigns m
  · rw [hc]
    exact (hsigns m).trans (viewFrame_lockAndVote _)

end

lemma delCache_viewChanges {header : BlockHeader} : (c.delCache E header).recvViewChangeReq = c.recvViewChangeReq ∧
      (c.delCache E header).latestViewChangeReqCache = c.latestViewChangeReqCache := by
  rw [delCache_eq]
  exact ⟨rfl, rfl⟩

lemma viewFrame_checkAndSave (s : PBFTEngine) : ViewFrame s (s.checkAndSave E) := by
  obtain ⟨m, m', -, -, hc | ⟨bl, -, -, -, -, hc⟩⟩ := checkAndSave_cases E s
  · rw [hc]
    exact viewFrame_reqCache s rfl rfl
  let t := (s.withSigns m).withCommits m'
  have hframe : ViewFrame s t := viewFrame_reqCache s rfl rfl
  refine hframe.trans ?_
  have hcache : (t.saveBlock E bl).reqCache.recvViewChangeReq = t.reqCache.recvViewChangeReq ∧
      (t.saveBlock E bl).reqCache.latestViewChangeReqCache = t.reqCache.latestViewChangeReqCache := by
    rcases saveBlock_reqCache with hdel | hkeep
    · rw [hdel, delCache_viewChanges.1, delCache_viewChanges.2]
      exact ⟨rfl, rfl⟩
    · rw [hkeep]
      exact ⟨rfl, rfl⟩
  rw [hc]
  refine ⟨⟨?_, ?_, ?_, ?_, ?_, ?_, ?_, ?_, [_], saveBlock_log, by simp⟩, ?_, hcache.1, hcache.2⟩ <;>
    rw [saveBlock_eq]

lemma SmallStep.viewStep (h : SmallStep E amb s₀ e a b) : ViewStep E amb s₀ e a b := by
  have hstay : ∀ t, ViewFrame a t → ViewStep E amb s₀ e a t := fun t ht =>
    ViewStep.move t _ _ _ ViewMove.stay ht
  cases h with
  | idle t lf nn fv tv pr pf fp rv lv hfp hrv hlv hmove =>
    exact ViewStep.move _ tv rv lv hmove ⟨⟨rfl, rfl, rfl, rfl, rfl, rfl, rfl, rfl, [], rfl, by simp⟩, rfl, rfl, rfl⟩
  | propose req | sendViewChange req target => exact hstay _ (viewFrame_note a (by simp))
  | accept => exact hstay _ (viewFrame_accept a)
  | execute =>
    exact hstay _ ((viewFrame_accept a).trans (viewFrame_noteExecution _))
  | prepare =>
    exact hstay _ ((viewFrame_prepareFor a).trans (viewFrame_countAndVote _))
  | signVote p req =>
    have hadd : ViewFrame a { a with reqCache := a.reqCache.addSignReq req } :=
      viewFrame_reqCache a rfl rfl
    exact hstay _ (hadd.trans (viewFrame_countAndVote _))
  | save => exact hstay _ (viewFrame_checkAndSave a)
  | viewChangeVote p req he hkind hdecode hsign hvalid hchain =>
    exact ViewStep.vote p req he hkind hdecode hvalid hchain
  | changeView hcount hidx => exact ViewStep.change hcount hidx
  | report bl hb hs he => exact ViewStep.report bl hb hs he
  | reset hs he => exact ViewStep.reset hs he
  | sync =>
    refine hstay _ ?_
    unfold syncBlock
    dsimp only
    split
    · exact ⟨⟨rfl, rfl, rfl, rfl, rfl, rfl, rfl, rfl, [_], rfl, by simp⟩, rfl, rfl, rfl⟩
    · exact ViewFrame.refl a
  | garbage => exact ViewStep.garbage
  | _ => exact hstay _ (viewFrame_reqCache a rfl rfl)

end PBFTEngine

end FiscoBcos
