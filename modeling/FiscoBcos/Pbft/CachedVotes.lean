import FiscoBcos.Pbft.Basics

/-!
# What is in the vote caches

What holds of every request that gets into the sign or the commit cache, and survives the marking of checked requests,
holds of all cached ones.
-/

namespace FiscoBcos

open BucketMap List

variable {check : PBFTMsg → Bool} {req : PBFTMsg} {m' m : ReqMap} {x : Action} {idx : Nat}

lemma Recounted.all {P : PBFTMsg → Prop} (h : Recounted check m m')
    (hmark : ∀ r, r.isFuture = true → check r = true → P r → P r.checked) (hm : m.All P) : m'.All P := by
  intro k r' hr'
  obtain ⟨r, hr, rfl | ⟨hfuture, hcheck, rfl⟩⟩ := h.mem hr'
  · exact hm k _ hr
  · exact hmark r hfuture hcheck (hm k r hr)

def Action.tally : Action → Option Tally
  | .updateCommittedPrepare t _ => some t
  | .commitBlock t _ _ => some t
  | _ => none

/-- The request the action sends, with the type of its packet. -/
def Action.sent : Action → Option (PacketType × PBFTMsg)
  | .broadcastPrepareReq r => some (.PrepareReqPacket, r.toPBFTMsg)
  | .broadcastSignReq r _ => some (.SignReqPacket, r)
  | .broadcastCommitReq r _ => some (.CommitReqPacket, r)
  | .sendViewChangeReq r _ => some (.ViewChangeReqPacket, r)
  | _ => none

def sentRequests (log : List Action) : List (PacketType × PBFTMsg) :=
  log.filterMap Action.sent

namespace PBFTEngine

def Cached (P Q : PBFTMsg → Prop) (c : PBFTReqCache) : Prop :=
  c.signCache.All P ∧ c.commitCache.All Q

variable {E : Env} {amb : Ambient} {s₀ a b : PBFTEngine} {e : Event} {P Q : PBFTMsg → Prop}

variable {s : PBFTEngine} {limit : Nat} {sealers : List NodeID}

lemma Fresh.cached (h : Fresh s) : Cached P Q s.reqCache := by
  constructor <;> intro k r hr
  · rw [h.signCache] at hr
    cases hr
  · rw [h.commitCache] at hr
    cases hr

lemma idx_ne_of_getLeader (hconf : Configured sealers limit s₀) (h : s₀.getLeader = some idx) : s₀.idx ≠ MAXIDX := by
  intro hidx
  have herr : s₀.cfgErr = true := by rw [hconf.cfgErr, hidx]; rfl
  unfold getLeader at h
  rw [herr] at h
  cases h

lemma Cached.countAndVote (hmark : ∀ r, r.isFuture = true → checkSign E s.sealerList r = true → P r → P r.checked)
    (hown : ∀ t, Frame s t → t.reqCache.prepareCache.view = t.view →
      .broadcastCommitReq (t.ownVote E amb.commitStamp) t.reqCache.proposal ∈
        (s.countAndVote E amb).log → Q (t.ownVote E amb.commitStamp))
    (hs : Cached P Q s.reqCache) : Cached P Q (s.countAndVote E amb).reqCache := by
  obtain ⟨m, hre, hc | ⟨hview, -, hc⟩⟩ := countAndVote_cases
  · rw [hc]
    exact ⟨hre.all hmark hs.1, hs.2⟩
  have hvote := hown (s.withSigns m) (frame_withSigns s m) hview (by
    rw [hc, lockAndVote_log]
    exact mem_cons_self)
  rw [hc, lockAndVote_reqCache]
  exact ⟨hre.all hmark hs.1, hs.2.add hvote⟩

lemma Refiled.all (h : Refiled check P m m') (hmark : ∀ r, r.isFuture = true → check r = true → Q r → Q r.checked)
    (hP : ∀ r, P r → Q r) (hm : m.All Q) : m'.All Q := by
  cases h with
  | fewer hre hsub => exact (hre.all hmark hm).of_sub hsub
  | more r hnew hr => exact hm.add (hP r hr)

lemma SmallStep.cached (h : SmallStep E amb s₀ e a b) (hconf : Configured sealers limit s₀)
    (hmark : ∀ r, r.isFuture = true → checkSign E a.sealerList r = true → P r → P r.checked)
    (hmark' : ∀ r, r.isFuture = true → checkSign E a.sealerList r = true → Q r → Q r.checked)
    (hP : ∀ r, EntersSign E amb s₀ e a b r → P r) (hQ : ∀ r, EntersCommit E amb s₀ e a b r → Q r)
    (ha : Cached P Q a.reqCache) : Cached P Q b.reqCache := by
  cases h.effect with
  | prepare full req bl result context ht hready hexec =>
    have hframe : Frame a (a.prepareFor E amb full req bl result context) :=
      frame_prepareFor a full req bl result context
    have hidx : a.idx ≠ MAXIDX := by
      rw [hready.frame.idx]
      exact idx_ne_of_getLeader hconf (validPrepare_of_isValidPrepare ht.2).leader
    obtain ⟨l, hl, -⟩ := countAndVote_log
    refine Cached.countAndVote (s := a.prepareFor E amb full req bl result context) ?_ ?_ ?_
    · rw [hframe.sealerList]
      exact hmark
    · intro t ht hview hlog
      exact hQ _ (EntersCommit.own (hframe.trans ht) hidx hview hlog)
    · rw [prepareFor_reqCache]
      refine ⟨(ha.1.of_sub sub_filter).add (hP _ (EntersSign.own ht hready hexec ?_)), ha.2.of_sub sub_filter⟩
      exact hl ▸ mem_append_right l mem_cons_self
  | signVote req hs hidx he hkind hdecode hnew hv =>
    refine Cached.countAndVote (s := { a with reqCache := a.reqCache.addSignReq req }) hmark ?_ ?_
    · intro t ht hview hlog
      exact hQ _ (EntersCommit.own (frame_reqCache.trans ht) hidx hview hlog)
    · exact ⟨ha.1.add (hP req (EntersSign.checked hs he hkind hdecode hv)), ha.2⟩
  | quiet _ _ _ _ _ _ hsigns hcommits =>
    exact ⟨hsigns.all hmark (fun r hr => hP r hr.1) ha.1, hcommits.all hmark' (fun r hr => hQ r hr.1) ha.2⟩

lemma checkSign_of_valid (hconf : Configured sealers limit s) (hv : s.checkReq E amb req = .VALID) :
    checkSign E sealers req = true :=
  hconf.sealerList ▸ (checkReq_valid hv).2.2.2

/-- A sealer list whose indices fit `IDXTYPE`, without the key that stands for no sealer. -/
structure Sealers (sealers : List NodeID) : Prop where
  size : sealers.length ≤ MAXIDX
  ne_zero : 0 ∉ sealers

lemma Configured.own_key (hconf : Configured sealers limit s) (hsealers : Sealers sealers) (hidx : s.idx ≠ MAXIDX) :
    getSealerByIndex sealers s.idx = s.keyPair ∧ s.keyPair ≠ 0 := by
  have hown := hconf.idx
  have hsize := hsealers.size
  unfold ownIdx at hown
  by_cases hmem : s.keyPair ∈ sealers
  · rw [if_pos hmem] at hown
    have hlt := idxOf_lt_length_of_mem hmem
    rw [Nat.mod_eq_of_lt (by omega)] at hown
    refine ⟨?_, fun h0 => hsealers.ne_zero (h0 ▸ hmem)⟩
    unfold getSealerByIndex
    rw [hown, getD_eq_getElem _ _ hlt, getElem_idxOf]
  · rw [if_neg hmem] at hown
    exact absurd hown hidx

lemma checkSign_signed {key : NodeID} {height view : Int} {h : Hash} {st : Stamp}
    (hverify : ∀ key h n, E.verify key (E.sign key h n) h = true) (hkey : getSealerByIndex sealers idx = key)
    (hne : key ≠ 0) : checkSign E sealers (PBFTMsg.signed E key height view idx h st) = true := by
  have hidx : (PBFTMsg.signed E key height view idx h st).idx = idx := rfl
  unfold checkSign
  rw [hidx, hkey, Bool.and_eq_true, Bool.and_eq_true]
  exact ⟨by simpa using hne, hverify key h st.nonce, hverify key _ st.nonce2⟩

lemma lockAndVote_signTally (E : Env) (amb : Ambient) (s : PBFTEngine) :
    (s.lockAndVote E amb).signTally = s.signTally := by
  have hframe : Frame s (s.lockAndVote E amb) := frame_lockAndVote
  unfold signTally
  rw [hframe.minValidNodes, hframe.sealerList, lockAndVote_reqCache]

/-- A count that went through: of sign requests into the lock, or of commit requests into a call of `commitBlock`. -/
inductive CountedBy (E : Env) (s₀ a b : PBFTEngine) : Action → Prop where
  | lock {raw : PrepareReq} (hframe : Frame s₀ b) (hview : b.reqCache.prepareCache.view = b.view)
      (hcount : Counted b.reqCache.signCache b.reqCache.prepareCache.blockHash b.minValidNodes) :
      CountedBy E s₀ a b (.updateCommittedPrepare b.signTally raw)
  | save {m m' : ReqMap} {bl : Block} {result : CommitResult}
      (hcommits : Recounted (checkSign E a.sealerList) a.reqCache.commitCache m')
      (hview : a.reqCache.prepareCache.view = a.view)
      (hheight : a.highestBlock.number < a.reqCache.prepareCache.height)
      (hblock : a.reqCache.prepareCache.pBlock = some bl)
      (hcount : Counted m' a.reqCache.prepareCache.blockHash a.minValidNodes) :
      CountedBy E s₀ a b (.commitBlock ((a.withSigns m).withCommits m').commitTally
        (((a.withSigns m).withCommits m').signedBlock bl) result)

lemma countAndVote_tally (hs : Frame s₀ s) (hx : x ∈ (s.countAndVote E amb).log) :
    x ∈ s.log ∨ x.tally = none ∨ CountedBy E s₀ a (s.countAndVote E amb) x := by
  obtain ⟨m, -, hc | ⟨hview, hcount, hc⟩⟩ := countAndVote_cases
  · rw [hc] at hx
    exact .inl hx
  have hframe : Frame (s.withSigns m) ((s.withSigns m).lockAndVote E amb) := frame_lockAndVote
  rw [hc, lockAndVote_log] at hx
  simp only [mem_cons] at hx
  rcases hx with rfl | rfl | rfl | hold
  · exact .inr (.inl rfl)
  · exact .inr (.inl rfl)
  · refine .inr (.inr ?_)
    rw [hc, ← lockAndVote_signTally]
    refine CountedBy.lock ((hs.trans (frame_withSigns s m)).trans hframe) ?_ ?_
    · rw [lockAndVote_reqCache, hframe.view]
      exact hview
    · rw [lockAndVote_reqCache, hframe.minValidNodes]
      exact hcount
  · exact .inl hold

lemma SmallStep.tally (h : SmallStep E amb s₀ e a b) (hx : x ∈ b.log) :
    x ∈ a.log ∨ x.tally = none ∨ CountedBy E s₀ a b x := by
  have hone : ∀ y : Action, y.tally = none → x ∈ y :: a.log → x ∈ a.log ∨ x.tally = none ∨ CountedBy E s₀ a b x := by
    intro y hy hmem
    rcases mem_cons.mp hmem with rfl | hold
    · exact .inr (.inl hy)
    · exact .inl hold
  cases h with
  | propose req | sendViewChange req | execute full req bl result => exact hone _ rfl hx
  | prepare full req bl result context ho hv hready =>
    rcases countAndVote_tally (s := a.prepareFor E amb full req bl result context)
      (hready.frame.trans (frame_prepareFor a full req bl result context)) hx with hold | hnew
    · rw [prepareFor_log] at hold
      rcases mem_cons.mp hold with rfl | hold
      · exact .inr (.inl rfl)
      · exact hone _ rfl hold
    · exact .inr hnew
  | signVote p req hs =>
    subst hs
    exact countAndVote_tally frame_reqCache hx
  | save =>
    obtain ⟨m, m', -, hre', hc | ⟨bl, hview, hheight, hbl, hcount, hc⟩⟩ := checkAndSave_cases E a
    · rw [hc] at hx
      exact .inl hx
    rw [hc, saveBlock_log] at hx
    rcases mem_cons.mp hx with rfl | hold
    · exact .inr (.inr (CountedBy.save hre' hview hheight hbl hcount))
    · exact .inl hold
  | changeView => exact hone _ rfl hx
  | report =>
    rcases reportBlockWithoutLock_cases with ⟨hr, -⟩ | ⟨_, -, -, ⟨-, hr⟩ | ⟨-, hr⟩⟩ <;>
    · rw [hr] at hx
      exact hone _ rfl hx
  | reset =>
    obtain ⟨_, hr, -⟩ := resetConfig_cases amb a
    rw [hr] at hx
    exact .inl hx
  | sync =>
    unfold syncBlock at hx
    dsimp only at hx
    split at hx
    · exact hone _ rfl hx
    · exact .inl hx
  | _ => exact .inl hx

def OfView (s : PBFTEngine) : Prop :=
  s.reqCache.proposal ≠ none → (∀ r ∈ s.reqCache.signCache.bucket s.reqCache.prepareCache.blockHash,
      r.view = s.reqCache.prepareCache.view) ∧
    ∀ r ∈ s.reqCache.commitCache.bucket s.reqCache.prepareCache.blockHash, r.view = s.reqCache.prepareCache.view

lemma recounted_views {k : Hash} {v : Int}
    (h : Recounted check m m') (hm : ∀ r ∈ m.bucket k, r.view = v) : ∀ r ∈ m'.bucket k, r.view = v := by
  intro r' hr'
  obtain ⟨r, hr, rfl | ⟨-, -, rfl⟩⟩ := h.mem hr'
  · exact hm _ hr
  · exact hm r hr

lemma Refiled.views {k : Hash} {v : Int} (h : Refiled check P m m') (hP : ∀ r, P r → k = r.blockHash → r.view = v)
    (hm : ∀ r ∈ m.bucket k, r.view = v) : ∀ r ∈ m'.bucket k, r.view = v := by
  intro r' hr'
  cases h with
  | fewer hre hsub => exact recounted_views hre hm r' ((hsub k).subset hr')
  | more r hnew hr =>
    rcases mem_bucket_add hr' with rfl | hold
    · exact hP r' hr (key_of_mem_bucket hr').symm
    · exact hm r' hold

lemma OfView.countAndVote (hs : OfView s) : OfView (s.countAndVote E amb) := by
  obtain ⟨m, hre, hc | ⟨-, -, hc⟩⟩ := countAndVote_cases
  · rw [hc]
    intro hset
    exact ⟨recounted_views hre (hs hset).1, (hs hset).2⟩
  rw [hc]
  intro hset
  refine ⟨recounted_views hre (hs hset).1, fun r hr => ?_⟩
  rcases mem_bucket_add hr with rfl | hold
  · rfl
  · exact (hs hset).2 r hold

lemma ofView_smallStep (h : SmallStep E amb s₀ e a b) (ha : OfView a) : OfView b := by
  cases h.effect with
  | prepare full req bl result context =>
    refine OfView.countAndVote (s := a.prepareFor E amb full req bl result context) fun _ => ?_
    -- of the requests for this hash only those of the view are left, and the own one is of the view
    have hfilter : ∀ (m : ReqMap) (k : Hash) (v : Int), ∀ r ∈ (PBFTReqCache.removeInvalidReqs m k
        v).bucket k, r.view = v := by
      intro m k v r hr
      have hkey := key_of_mem_bucket hr
      unfold PBFTReqCache.removeInvalidReqs at hr
      rw [bucket_filter, mem_filter] at hr
      simpa [hkey] using hr.2
    refine ⟨fun r hr => ?_, hfilter _ _ _⟩
    rcases mem_bucket_add hr with rfl | hold
    · rfl
    · exact hfilter _ _ _ r hold
  | signVote req hs hidx he hkind hdecode hnew hv =>
    refine OfView.countAndVote (s := { a with reqCache := a.reqCache.addSignReq req }) fun hset => ?_
    refine ⟨fun r hr => ?_, (ha hset).2⟩
    rcases mem_bucket_add hr with rfl | hold
    · exact (checkReq_valid hv).2.2.1
    · exact (ha hset).1 r hold
  | quiet _ _ _ hkept _ _ hsigns hcommits =>
    intro hset
    cases hkept with
    | cleared r hcache hproposal => exact absurd hproposal hset
    | same o hcache hblock hproposal =>
      obtain ⟨hs, hc⟩ := ha (hproposal ▸ hset)
      rw [hcache]
      exact ⟨hsigns.views (fun r hr h => absurd h hr.2) hs, hcommits.views (fun r hr => hr.2) hc⟩

end PBFTEngine

end FiscoBcos
