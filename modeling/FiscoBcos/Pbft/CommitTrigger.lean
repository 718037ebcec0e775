import FiscoBcos.Pbft.CachedVotes

/-!
# When the commit branch runs

`checkAndCommit` runs its commit branch when the number of counted sign requests equals the quorum. A proposal executed
when a quorum is already cached for its result gets past the equality.
-/

namespace FiscoBcos

open List Option PBFTReqCache Machine

open BucketMap

def countable (check : PBFTMsg → Bool) (l : List PBFTMsg) : Nat :=
  l.countP (fun r => !r.isFuture) + l.countP (goodFuture check)

def Action.lockTally : Action → Option Tally
  | .updateCommittedPrepare t _ => some t
  | _ => none

def CommitBranch (log : List Action) (h : Hash) (view : Int) : Prop :=
  ∃ x ∈ log, ∃ t ∈ x.lockTally, t.prepared.blockHash = h ∧ t.prepared.view = view

instance (log : List Action) (h : Hash) (view : Int) : Decidable (CommitBranch log h view) := by
  unfold CommitBranch
  infer_instance

lemma CommitBranch.mono {log log' : List Action} {h : Hash} {view : Int}
    (hb : CommitBranch log h view) (hlog : ∀ x ∈ log, x ∈ log') : CommitBranch log' h view := by
  obtain ⟨x, hx, ht⟩ := hb
  exact ⟨x, hlog x hx, ht⟩

section

variable {check : PBFTMsg → Bool} {l l' : List PBFTMsg}

lemma countable_le_of_sublist (h : l.Sublist l') : countable check l ≤ countable check l' := by
  exact Nat.add_le_add h.countP_le h.countP_le

lemma countable_eq (l : List PBFTMsg) : countable check l = l.countP fun r => !r.isFuture || goodFuture check r := by
  unfold countable
  induction l with
  | nil => rfl
  | cons r l ih =>
    rw [countP_cons, countP_cons, countP_cons, ← ih]
    cases hfuture : r.isFuture with
    | false =>
      simp only [goodFuture, hfuture, Bool.not_false, Bool.true_or, Bool.false_and, Bool.false_eq_true, if_true, if_false]
      omega
    | true =>
      simp only [Bool.not_true, Bool.false_or, Bool.false_eq_true, if_false]
      omega

lemma countable_le_length (l : List PBFTMsg) : countable check l ≤ l.length := by
  rw [countable_eq]
  exact countP_le_length

lemma length_filter_le_countable (check p : PBFTMsg → Bool) (l : List PBFTMsg) :
    (l.filter fun r => p r && check r).length ≤ countable check l := by
  rw [← countP_eq_length_filter, countable_eq]
  refine countP_mono_left fun r _ hr => ?_
  rw [Bool.and_eq_true] at hr
  cases hfuture : r.isFuture <;> simp [goodFuture, hfuture, hr.2]

lemma Recounted.countable_le {m m' : ReqMap} (h : Recounted check m m') {k : Hash} :
    countable check (m'.bucket k) ≤ countable check (m.bucket k) := by
  rcases h k with hnil | hall
  · rw [hnil]
    exact Nat.zero_le _
  -- a request that is marked was counted before
  generalize m.bucket k = l, m'.bucket k = l' at hall
  refine le_of_eq ?_
  rw [countable_eq, countable_eq]
  induction hall with
  | nil => rfl
  | @cons r r' l l' hr _ ih =>
    have hflags : r'.isFuture = r.isFuture ∧ goodFuture check r' = goodFuture check r := by
      rcases hr with rfl | ⟨hfuture, hcheck, rfl⟩
      · exact ⟨rfl, rfl⟩
      · exact ⟨rfl, by simp [goodFuture, PBFTMsg.checked, hfuture, hcheck]⟩
    rw [countP_cons, countP_cons, ih, hflags.1, hflags.2]

lemma predIdx_eq {n : Nat} (hpos : 1 ≤ n) (hmax : n ≤ MAXIDX) : predIdx n = n - 1 := by
  unfold predIdx
  unfold MAXIDX at *
  omega

lemma countable_lt_of_count_lt {n : Nat} (hpos : 1 ≤ n) (hmax : n ≤ MAXIDX)
    (hcurrent : 1 ≤ l.countP fun r => !r.isFuture)
    (hlt : (checkFutureReqs check (some (predIdx n)) 0 l).1.length < n) : countable check l < n := by
  rw [length_checkFutureReqs, predIdx_eq hpos hmax] at hlt
  unfold countable
  omega

lemma length_checkFutureReqs_cons {r : PBFTMsg} (h : r.isFuture = false) (m : Option Nat) :
    (checkFutureReqs check m 0 (r :: l)).1.length = (checkFutureReqs check m 0 l).1.length + 1 := by
  rw [checkFutureReqs, if_pos h]
  rfl

lemma length_checkFutureReqs_le_countable (check : PBFTMsg → Bool) (m : Nat) (l : List PBFTMsg) :
    (checkFutureReqs check (some m) 0 l).1.length ≤ countable check l := by
  rw [length_checkFutureReqs]
  unfold countable
  omega

end

namespace PBFTEngine

def votesFor (s : PBFTEngine) (h : Hash) (view : Int) : List PBFTMsg :=
  (s.reqCache.signCache.bucket h).filter fun r => r.view == view

/-- A quorum of valid votes for the prepare cache has been acted upon. -/
def QuorumTaken (E : Env) (s : PBFTEngine) : Prop :=
  s.view ≠ MAXVIEW → s.reqCache.prepareCache.view = s.view →
    s.minValidNodes ≤ ((s.reqCache.signCache.bucket s.reqCache.prepareCache.blockHash).filter
      fun r => r.view == s.reqCache.prepareCache.view && checkSign E s.sealerList r).length →
      CommitBranch s.log s.reqCache.prepareCache.blockHash s.reqCache.prepareCache.view

instance (E : Env) (s : PBFTEngine) : Decidable (QuorumTaken E s) := by
  unfold QuorumTaken
  infer_instance

/-- A proposal is voted for only while the count of the sign requests cached for its result in its view is below the
quorum, none of the unchecked ones being the node's own vote, or after its commit branch has run. -/
structure CountedBelow (E : Env) (sealers : List NodeID) (limit : Nat) (s : PBFTEngine)
    (e : Event × Ambient) : Prop where
  config : FixedConfig sealers limit e.2
  below : ∀ r b result context, Takes E s e r → Execution E e.2 s r b result context →
    context = true ∨ b.transactions = [] → CommitBranch s.log (result.hash E) r.view ∨
      (checkFutureReqs (checkSign E s.sealerList) (some (predIdx s.minValidNodes)) 0
          (s.votesFor (result.hash E) r.view)).1.length < s.minValidNodes ∧
        ∀ q ∈ s.votesFor (result.hash E) r.view, q.isFuture = true →
          q.sig ≠ E.sign s.keyPair (result.hash E) e.2.signStamp.nonce

/-- While the commit branch has not run for the prepare cache of the present view, the requests for it are below the
quorum. -/
structure Triggered (E : Env) (sealers : List NodeID) (s : PBFTEngine) : Prop where
  view : s.reqCache.proposal ≠ none → s.reqCache.prepareCache.view = s.view ∨ s.view = 0
  below : s.reqCache.proposal ≠ none → s.reqCache.prepareCache.view = s.view →
    CommitBranch s.log s.reqCache.prepareCache.blockHash s.reqCache.prepareCache.view ∨ countable (checkSign E sealers)
        (s.reqCache.signCache.bucket s.reqCache.prepareCache.blockHash) < s.minValidNodes

variable {E : Env} {amb : Ambient} {s₀ a b : PBFTEngine} {e : Event} {sealers : List NodeID} {limit : Nat}

lemma Refiled.countable_le {check : PBFTMsg → Bool} {P : PBFTMsg → Prop} {m m' : ReqMap} {k : Hash}
    (h : Refiled check P m m') (hP : ∀ r, P r → k ≠ r.blockHash) :
    countable check (m'.bucket k) ≤ countable check (m.bucket k) := by
  cases h with
  | fewer hre hsub => exact (countable_le_of_sublist (hsub k)).trans hre.countable_le
  | more r hnew hr => rw [bucket_add hnew, if_neg (hP r hr)]

lemma triggered_of_none (h : a.reqCache.proposal = none) : Triggered E sealers a :=
  ⟨fun hset => absurd h hset, fun hset => absurd h hset⟩

lemma Triggered.kept (ha : Triggered E sealers a) (hmin : b.minValidNodes = a.minValidNodes)
    (hview : b.view = a.view ∨ b.view = 0 ∨ b.reqCache.proposal = none) (hkept : Kept a.reqCache b.reqCache)
    (hcount : countable (checkSign E sealers) (b.reqCache.signCache.bucket a.reqCache.prepareCache.blockHash) ≤
      countable (checkSign E sealers) (a.reqCache.signCache.bucket a.reqCache.prepareCache.blockHash))
    (hlog : ∀ x ∈ a.log, x ∈ b.log) : Triggered E sealers b := by
  cases hkept with
  | cleared r hcache hproposal => exact triggered_of_none hproposal
  | same o hcache hblock hproposal =>
    have hpc : b.reqCache.prepareCache.view = a.reqCache.prepareCache.view := by rw [hcache]
    refine ⟨fun hset => ?_, fun hset heq => ?_⟩
    · have hold := ha.view (hproposal ▸ hset)
      have hnow := hview.imp_right fun h => h.resolve_right hset
      omega
    have hold := ha.view (hproposal ▸ hset)
    have hnow := hview.imp_right fun h => h.resolve_right hset
    rw [hcache, hmin]
    rcases ha.below (hproposal ▸ hset) (by omega) with hdone | hlt
    · exact .inl (hdone.mono hlog)
    · exact .inr (hcount.trans_lt hlt)

lemma sigCacheSize_fst (E : Env) (s : PBFTEngine) : (s.sigCacheSize E).1 = if s.minValidNodes ≤
          (s.reqCache.signCache.bucket s.reqCache.prepareCache.blockHash).length then
        (checkFutureReqs (checkSign E s.sealerList) (some (predIdx s.minValidNodes)) 0
          (s.reqCache.signCache.bucket s.reqCache.prepareCache.blockHash)).1.length
      else (s.reqCache.signCache.bucket s.reqCache.prepareCache.blockHash).length := by
  unfold sigCacheSize getSigCacheSize checkAndRemoveInvalidFutureReq
  dsimp only
  split
  · split
    · rename_i hnil
      rw [hnil]
      rfl
    · rfl
  · rfl

variable {s : PBFTEngine}

lemma countAndVote_of_size {amb : Ambient} (hsize : (s.sigCacheSize E).1 = s.minValidNodes)
    (hview : s.reqCache.prepareCache.view = s.view) : ∃ m, s.countAndVote E amb = (s.withSigns m).lockAndVote E amb := by
  obtain ⟨m, hm, -, -⟩ := sigCacheSize_spec E s
  refine ⟨m, ?_⟩
  unfold countAndVote
  dsimp only
  rw [hm, if_pos ⟨hsize, hview⟩]

lemma triggered_countAndVote (hlist : s.sealerList = sealers)
    (hpos : 1 ≤ s.minValidNodes) (hmax : s.minValidNodes ≤ MAXIDX) (hview : s.reqCache.prepareCache.view = s.view)
    (hcurrent : 1 ≤ (s.reqCache.signCache.bucket s.reqCache.prepareCache.blockHash).countP fun r => !r.isFuture)
    (hle : (checkFutureReqs (checkSign E sealers) (some (predIdx s.minValidNodes)) 0
      (s.reqCache.signCache.bucket s.reqCache.prepareCache.blockHash)).1.length ≤ s.minValidNodes) :
    Triggered E sealers (s.countAndVote E amb) := by
  have hlock : ∀ m, Triggered E sealers ((s.withSigns m).lockAndVote E amb) := by
    intro m
    have hbranch : CommitBranch ((s.withSigns m).lockAndVote E amb).log
        s.reqCache.prepareCache.blockHash s.reqCache.prepareCache.view := by
      exact ⟨_, mem_cons_of_mem _ (mem_cons_of_mem _ mem_cons_self), _, rfl, rfl, rfl⟩
    have hframe : Frame (s.withSigns m) ((s.withSigns m).lockAndVote E amb) := frame_lockAndVote
    refine ⟨fun _ => .inl ?_, fun _ _ => .inl ?_⟩
    · rw [lockAndVote_reqCache, hframe.view]
      exact hview
    · rw [lockAndVote_reqCache]
      exact hbranch
  by_cases hsize : (s.sigCacheSize E).1 = s.minValidNodes
  · obtain ⟨m, hc⟩ := countAndVote_of_size hsize hview
    rw [hc]
    exact hlock m
  obtain ⟨m, hre, hc | ⟨-, -, hc⟩⟩ := countAndVote_cases
  · rw [hc]
    rw [sigCacheSize_fst, hlist] at hsize
    rw [hlist] at hre
    refine ⟨fun _ => .inl hview, fun _ _ => .inr (hre.countable_le.trans_lt ?_)⟩
    split at hsize
    · exact countable_lt_of_count_lt hpos hmax hcurrent (lt_of_le_of_ne hle hsize)
    · rename_i hshort
      exact (countable_le_length _).trans_lt (not_le.mp hshort)
  · rw [hc]
    exact hlock m

lemma countAndVote_prepareCache (E : Env) (amb : Ambient) (s : PBFTEngine) :
    (s.countAndVote E amb).reqCache.prepareCache = s.reqCache.prepareCache ∧
      (s.countAndVote E amb).reqCache.proposal = s.reqCache.proposal := by
  obtain ⟨m, -, hc | ⟨-, -, hc⟩⟩ := countAndVote_cases
  · rw [hc]
    exact ⟨rfl, rfl⟩
  · rw [hc, lockAndVote_reqCache]
    exact ⟨rfl, rfl⟩

lemma triggered_countAndVote_of_done (hview : s.reqCache.prepareCache.view = s.view ∨ s.view = 0)
    (hdone : s.reqCache.prepareCache.view = s.view →
      CommitBranch s.log s.reqCache.prepareCache.blockHash s.reqCache.prepareCache.view) :
    Triggered E sealers (s.countAndVote E amb) := by
  obtain ⟨l, hl, -⟩ := countAndVote_log
  have hframe : Frame s (s.countAndVote E amb) := frame_countAndVote
  have hpc := (countAndVote_prepareCache E amb s).1
  refine ⟨fun _ => ?_, fun _ heq => .inl ?_⟩
  · rw [hpc, hframe.view]
    exact hview
  · rw [hpc, hframe.view] at heq
    rw [hpc, hl]
    exact (hdone heq).mono fun x hx => mem_append_right l hx

lemma bucket_removeInvalidReqs (m : ReqMap) (h : Hash) (view : Int) :
    (removeInvalidReqs m h view).bucket h = (m.bucket h).filter fun r => r.view == view := by
  unfold removeInvalidReqs
  rw [bucket_filter]
  refine filter_congr fun r hr => ?_
  rw [key_of_mem_bucket hr]
  simp

lemma count_add_own {check : PBFTMsg → Bool} {n : Nat} (m : ReqMap) (own : PBFTMsg) (hcurrent : own.isFuture = false)
    (hown : ∀ q ∈ m.bucket own.blockHash, q.isFuture = true → q.sig ≠ own.sig)
    (hlt : (checkFutureReqs check (some (predIdx n)) 0 (m.bucket own.blockHash)).1.length < n) :
    1 ≤ ((m.add own).bucket own.blockHash).countP (fun r => !r.isFuture) ∧ (checkFutureReqs check (some (predIdx n)) 0
        ((m.add own).bucket own.blockHash)).1.length ≤ n := by
  cases hmem : m.contains own.blockHash own.sig with
  | true =>
    rw [bucket_add_of_contains hmem]
    obtain ⟨q, hq, hsig⟩ := contains_iff.mp hmem
    refine ⟨?_, hlt.le⟩
    refine countP_pos_iff.mpr ⟨q, hq, ?_⟩
    cases hfuture : q.isFuture with
    | true => exact absurd hsig (hown q hq hfuture)
    | false => rfl
  | false =>
    rw [bucket_add hmem, if_pos rfl, length_checkFutureReqs_cons hcurrent]
    refine ⟨?_, hlt⟩
    exact countP_pos_iff.mpr ⟨own, mem_cons_self, by rw [hcurrent]; rfl⟩

lemma triggered_prepare {full : Bool} {req : PrepareReq} {bl result : Block} {context : Bool}
    (hsafe : CountedBelow E sealers limit s₀ (e, amb)) (hconf : Configured sealers limit s₀)
    (hpos : 1 ≤ s₀.minValidNodes) (hmax : s₀.minValidNodes ≤ MAXIDX) (hlog : ∀ x ∈ s₀.log, x ∈ a.log)
    (ho : Origin E amb s₀ e req) (hv : s₀.isValidPrepare E amb req = .VALID) (hready : Ready s₀ a)
    (hexec : Execution E amb s₀ req bl result context) (hcontext : context = true ∨ bl.transactions = []) :
    Triggered E sealers ((a.prepareFor E amb full req bl result context).countAndVote E amb) := by
  have hframe : Frame s₀ (a.prepareFor E amb full req bl result context) :=
    hready.frame.trans (frame_prepareFor a full req bl result context)
  have hcache := prepareFor_reqCache E amb a full req bl result context
  have hview : (a.prepareFor E amb full req bl result context).reqCache.prepareCache.view =
      (a.prepareFor E amb full req bl result context).view := by
    rw [hcache, hframe.view]
    exact (validPrepare_of_isValidPrepare hv).view
  rcases hsafe.below req bl result context ⟨ho, hv⟩ hexec hcontext with hdone | ⟨hlt, hown⟩
  · refine triggered_countAndVote_of_done (.inl hview) fun _ => ?_
    exact hdone.mono fun x hx => mem_cons_of_mem _ (mem_cons_of_mem _ (hlog x hx))
  have hsigns : s₀.reqCache.signCache = a.reqCache.signCache := by rw [hready.reqCache]
  have hvotes := bucket_removeInvalidReqs a.reqCache.signCache (result.hash E) req.view
  unfold votesFor at hlt hown
  rw [hconf.sealerList] at hlt
  rw [hsigns, ← hvotes] at hlt hown
  obtain ⟨hcurrent, hle⟩ := count_add_own (removeInvalidReqs a.reqCache.signCache (result.hash E) req.view)
    ((req.executed E a.keyPair result context amb.executedStamp).vote E a.keyPair a.idx
      amb.signStamp) rfl (by rw [hready.frame.keyPair]; exact hown) hlt
  refine triggered_countAndVote (hframe.sealerList.trans hconf.sealerList)
    (hframe.minValidNodes ▸ hpos) (hframe.minValidNodes ▸ hmax) hview ?_ ?_
  · rw [hcache]
    exact hcurrent
  · rw [hcache, hframe.minValidNodes]
    exact hle

lemma Triggered.signVote {req : SignReq} (hconf : Configured sealers limit a) (hpos : 1 ≤ a.minValidNodes)
    (hmax : a.minValidNodes ≤ MAXIDX) (hcurrent : req.isFuture = false) (hnew : a.reqCache.isExistSign req = false)
    (hhash : req.blockHash = a.reqCache.prepareCache.blockHash) (ha : Triggered E sealers a) :
    Triggered E sealers ({ a with reqCache := a.reqCache.addSignReq req }.countAndVote E amb) := by
  cases hproposal : a.reqCache.proposal with
  | none =>
    refine triggered_of_none ?_
    rw [(countAndVote_prepareCache E amb _).2]
    exact hproposal
  | some =>
    have hset : a.reqCache.proposal ≠ none := by simp [hproposal]
    by_cases hview : a.reqCache.prepareCache.view = a.view
    · rcases ha.below hset hview with hdone | hlt
      · exact triggered_countAndVote_of_done (.inl hview) fun _ => hdone
      have hbucket : (a.reqCache.signCache.add req).bucket a.reqCache.prepareCache.blockHash =
          req :: a.reqCache.signCache.bucket a.reqCache.prepareCache.blockHash := by
        rw [bucket_add hnew, if_pos hhash.symm]
      have hcount := length_checkFutureReqs_le_countable (checkSign E sealers) (predIdx a.minValidNodes)
        (a.reqCache.signCache.bucket a.reqCache.prepareCache.blockHash)
      have hone : 1 ≤ ((a.reqCache.signCache.add req).bucket
          a.reqCache.prepareCache.blockHash).countP fun r => !r.isFuture := by
        rw [hbucket]
        exact countP_pos_iff.mpr ⟨req, mem_cons_self, by rw [hcurrent]; rfl⟩
      have hle : (checkFutureReqs (checkSign E sealers) (some (predIdx a.minValidNodes)) 0
          ((a.reqCache.signCache.add req).bucket a.reqCache.prepareCache.blockHash)).1.length ≤ a.minValidNodes := by
        rw [hbucket, length_checkFutureReqs_cons hcurrent]
        exact Nat.succ_le_of_lt (hcount.trans_lt hlt)
      exact triggered_countAndVote hconf.sealerList hpos hmax hview hone hle
    · exact triggered_countAndVote_of_done (ha.view hset) fun heq => absurd heq hview

lemma triggered_smallStep (hsafe : CountedBelow E sealers limit s₀ (e, amb))
    (hsize : 1 ≤ sealers.length ∧ sealers.length ≤ MAXIDX) (hconf₀ : Configured sealers limit s₀)
    (hconf : Configured sealers limit a) (hconf' : Configured sealers limit b) (hlog₀ : ∀ x ∈ s₀.log, x ∈ a.log)
    (h : SmallStep E amb s₀ e a b) (ha : Triggered E sealers a) : Triggered E sealers b := by
  have hmin : b.minValidNodes = a.minValidNodes := by
    rw [hconf.minValidNodes, hconf'.minValidNodes]
  have hbounds := hconf.minValidNodes_bounds hsize
  have hbounds₀ := hconf₀.minValidNodes_bounds hsize
  obtain ⟨l, hl, -⟩ := h.logged
  have hlog : ∀ x ∈ a.log, x ∈ b.log := fun x hx => hl ▸ mem_append_right l hx
  cases h.effect with
  | prepare full req bl result context ht hready hexec hcontext =>
    exact triggered_prepare hsafe hconf₀ hbounds₀.1 hbounds₀.2 hlog₀ ht.1 ht.2 hready hexec hcontext
  | signVote req hs hidx he hkind hdecode hnew hv =>
    exact ha.signVote hconf hbounds.1 hbounds.2 (decodeToMsg_flags hdecode).1 hnew (checkReq_valid hv).1
  | quiet _ _ _ hkept _ hview hsigns =>
    rw [hconf.sealerList] at hsigns
    exact ha.kept hmin hview hkept (hsigns.countable_le fun r hr => hr.2) hlog

lemma triggered_step (hsize : 1 ≤ sealers.length ∧ sealers.length ≤ MAXIDX) (s : PBFTEngine) (e : Event × Ambient)
    (hsafe : CountedBelow E sealers limit s e) (hs : Configured sealers limit s ∧ Prepared E s ∧ Triggered E sealers s)
    : Configured sealers limit (step E s e) ∧ Prepared E (step E s e) ∧ Triggered E sealers (step E s e) := by
  have hinv := invariant_step (fun t => (∀ x ∈ s.log, x ∈ t.log) ∧ Configured sealers limit t ∧ Prepared E t ∧
      Triggered E sealers t)
    (fun a b h hab => by
      obtain ⟨hlog, hconf, hprep, ha⟩ := hab
      obtain ⟨l, hl, -⟩ := h.logged
      have hconf' := configured_smallStep hsafe.config h hconf
      exact ⟨fun x hx => hl ▸ mem_append_right l (hlog x hx), hconf', prepared_smallStep h hprep,
        triggered_smallStep hsafe hsize hs.1 hconf hconf' hlog h ha⟩)
    (e := e) ⟨fun _ hx => hx, hs⟩
  exact hinv.2

lemma Triggered.quorumTaken (hs : Triggered E sealers s) (hprep : Prepared E s)
    (hlist : s.sealerList = sealers) : QuorumTaken E s := by
  intro hmax hview hquorum
  rcases hs.below (hprep.proposal_ne_none hview hmax) hview with hdone | hlt
  · exact hdone
  have hle := length_filter_le_countable (checkSign E sealers) (fun r => r.view == s.reqCache.prepareCache.view)
    (s.reqCache.signCache.bucket s.reqCache.prepareCache.blockHash)
  rw [hlist] at hquorum
  omega

/-- In every run in which no proposal is voted for with a quorum for its result already counted, no quorum of valid sign
requests for the prepare cache is stepped over. -/
theorem quorumTaken_of_countedBelow (E : Env) (sealers : List NodeID)
    (hsize : sealers.length ≤ MAXIDX) (limit : Nat) (amb : Ambient)
    (hamb : FixedConfig sealers limit amb) (cfg : NodeConfig) (backup : Option WireMsg)
    (es : List (Event × Ambient))
    (hrun : Along (step E) (CountedBelow E sealers limit) (start E amb cfg backup) es) :
    QuorumTaken E (run (step E) (start E amb cfg backup) es) := by
  have hfresh := fresh_start E amb cfg backup
  have hinv := invariant_run (fun s => Configured sealers limit s ∧ Prepared E s ∧ Triggered E sealers s)
    (triggered_step ⟨hamb.length_pos, hsize⟩)
    ⟨configured_start hamb, hfresh.prepared, triggered_of_none hfresh.proposal⟩ hrun
  exact hinv.2.2.quorumTaken hinv.2.1 hinv.1.sealerList

end PBFTEngine

namespace Symbolic

open PBFTEngine

/-- A proposal that comes back after another one finds a quorum of votes for its result, more than the equality asks
for. -/
theorem not_quorumTaken_of_returning_proposal : ¬QuorumTaken env (run (step env) (node 12)
      [propose false (block 5), voteFor .SignReqPacket 0 (block 5) 0, propose false (block 6),
        voteFor .SignReqPacket 2 (block 5) 0, voteFor .SignReqPacket 3 (block 5) 0,
        propose false (block 5)]) := by
  decide +kernel

lemma countedBelow_deliver {s : PBFTEngine} {kind : PacketType} {flag : Bool} {w : WireMsg}
    (h : kind ≠ .PrepareReqPacket ∨ (∀ k, s.reqCache.signCache.bucket k = []) ∧ 0 < s.minValidNodes) :
    CountedBelow env sealers 1000 s (deliver kind flag w) := by
  refine ⟨fixedConfig_ambient, fun r b result context ht _ _ => ?_⟩
  rcases h with hkind | ⟨hempty, hpos⟩
  · cases ht.1 with
    | packet hprepare => exact absurd hprepare hkind
  · unfold votesFor
    rw [hempty]
    exact .inr ⟨hpos, fun q hq => (nomatch hq)⟩

theorem quorumTaken_of_countedBelow_of_round : QuorumTaken env (run (step env) (node 12)
      [propose false (block 5), voteFor .SignReqPacket 0 (block 5) 0, voteFor .SignReqPacket 2 (block 5) 0]) :=
  quorumTaken_of_countedBelow env sealers (by decide) 1000 ambient fixedConfig_ambient
    { keyPair := 12, blockChain := chain } none _
    ⟨countedBelow_deliver (.inr ⟨(fresh_start _ _ _ _).signCache, by decide +kernel⟩),
      countedBelow_deliver (.inl (by decide)), countedBelow_deliver (.inl (by decide)), trivial⟩

end Symbolic

end FiscoBcos
