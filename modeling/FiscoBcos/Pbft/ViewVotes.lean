import FiscoBcos.Lib.KeyedRows
import FiscoBcos.Pbft.ViewSteps

/-!
# The cached view-change requests

`m_recvViewChangeReq` files the requests by view, `m_latestViewChangeReqCache` remembers one request per sealer. The two
stay in step as long as no sealer with a cached request is answered by `catchupView`, which edits only the second map.
-/

namespace FiscoBcos

open List Option PBFTReqCache List.Sublist Machine Prod PBFTMsg

variable {req : ViewChangeReq} {keep : ViewChangeReq → Prop} {q : Int × List ViewChangeReq} {i : Nat} {s : PBFTEngine}

namespace PBFTReqCache

def Live (c : PBFTReqCache) (r : ViewChangeReq) : Prop :=
  ∃ q ∈ c.recvViewChangeReq, r ∈ q.2

/-- There is one bucket per view, in it at most one request per sealer, and each request in a bucket is
the latest of its sealer. -/
structure LiveVotes (c : PBFTReqCache) : Prop where
  keys : (c.recvViewChangeReq.map fst).Nodup
  distinct : ∀ q ∈ c.recvViewChangeReq, (q.2.map idx).Nodup
  view : ∀ q ∈ c.recvViewChangeReq, ∀ r ∈ q.2, r.view = q.1
  latest : ∀ r, c.Live r → c.latestViewChange? r.idx = some r

def OneLiveVote (c : PBFTReqCache) : Prop :=
  (∀ q ∈ c.recvViewChangeReq, ∀ q' ∈ c.recvViewChangeReq, ∀ r ∈ q.2, ∀ r' ∈ q'.2,
      r.idx = r'.idx → q.1 = q'.1) ∧
    ∀ q ∈ c.recvViewChangeReq, ∀ r ∈ q.2,
      (c.latestViewChange? r.idx).map view = some q.1

instance (c : PBFTReqCache) : Decidable c.OneLiveVote :=
  inferInstanceAs (Decidable (_ ∧ _))

structure Prunes (keep : ViewChangeReq → Prop) (c c' : PBFTReqCache) : Prop where
  keys : (c'.recvViewChangeReq.map fst).Sublist (c.recvViewChangeReq.map fst)
  buckets : ∀ q' ∈ c'.recvViewChangeReq, ∃ q ∈ c.recvViewChangeReq, q'.1 = q.1 ∧ q'.2.Sublist q.2
  live : ∀ r, c'.Live r ↔ c.Live r ∧ keep r
  latest : ∀ r, c'.Live r → c.latestViewChange? r.idx = some r → c'.latestViewChange? r.idx = some r

variable {c c' : PBFTReqCache} {r r' : ViewChangeReq}

lemma find?_filter_of_some {l : List ViewChangeReq} {p keep : ViewChangeReq → Bool}
    (h : l.find? p = some r) (hkeep : keep r = true) : (l.filter keep).find? p = some r := by
  obtain ⟨hr, before, after, hl, hbefore⟩ := find?_eq_some_iff_append.mp h
  rw [find?_filter]
  refine find?_eq_some_iff_append.mpr ⟨by simp [hr, hkeep], before, after, hl, fun x hx => ?_⟩
  simp_all

lemma idx_of_latestViewChange? (h : c.latestViewChange? i = some r) : r.idx = i := by
  have hfound := find?_some h
  simpa using hfound

namespace LiveVotes

section

variable (h : c.LiveVotes)

include h

lemma viewBucket_eq (hq : q ∈ c.recvViewChangeReq) : c.viewBucket q.1 = q.2 := by
  unfold viewBucket
  rw [show c.recvViewChangeReq.find? (fun x => x.1 == q.1) = some q from KeyedRows.find?_of_nodup h.keys hq]
  rfl

lemma mem_viewBucket {v : Int} : r ∈ c.viewBucket v ↔ c.Live r ∧ r.view = v := by
  constructor
  · intro hr
    unfold viewBucket at hr
    cases hfind : c.recvViewChangeReq.find? fun q => q.1 == v with
    | none =>
      rw [hfind] at hr
      cases hr
    | some q =>
      have hq := mem_of_find?_eq_some hfind
      have hkey : q.1 = v := by simpa using find?_some hfind
      rw [hfind] at hr
      exact ⟨⟨q, hq, hr⟩, (h.view q hq r hr).trans hkey⟩
  · intro hr
    obtain ⟨⟨q, hq, hmem⟩, hview⟩ := hr
    rw [← hview, h.view q hq r hmem, h.viewBucket_eq hq]
    exact hmem

lemma nodup_viewBucket (v : Int) : ((c.viewBucket v).map idx).Nodup := by
  unfold viewBucket
  cases hfind : c.recvViewChangeReq.find? fun q => q.1 == v with
  | none => simp
  | some q => exact h.distinct q (mem_of_find?_eq_some hfind)

lemma eq_latest {v : ViewChangeReq} (hlatest : c.latestViewChange? i = some v)
    (r : ViewChangeReq) (hr : c.Live r) (hidx : r.idx = i) : r = v := by
  have hr' := h.latest r hr
  rw [hidx, hlatest] at hr'
  exact (some.inj hr').symm

lemma not_live_of_latest (hlatest : c.latestViewChange? i = none) (r : ViewChangeReq) (hr : c.Live r) : r.idx ≠ i := by
  intro hidx
  have hr' := h.latest r hr
  rw [hidx, hlatest] at hr'
  cases hr'

lemma eq_of_idx (hr : c.Live r) (hr' : c.Live r') (hidx : r.idx = r'.idx) : r = r' := by
  have hlatest := h.latest r hr
  rw [hidx, h.latest r' hr'] at hlatest
  exact (some.inj hlatest).symm

lemma oneLiveVote : c.OneLiveVote := by
  constructor
  · intro q hq q' hq' r hr r' hr' hidx
    obtain rfl := h.eq_of_idx ⟨q, hq, hr⟩ ⟨q', hq', hr'⟩ hidx
    rw [← h.view q hq r hr, h.view q' hq' r hr']
  · intro q hq r hr
    rw [h.latest r ⟨q, hq, hr⟩, map_some, h.view q hq r hr]

lemma prunes (hp : Prunes keep c c') : c'.LiveVotes := by
  refine ⟨h.keys.sublist hp.keys, ?_, ?_, ?_⟩
  · intro q' hq'
    obtain ⟨q, hq, -, hsub⟩ := hp.buckets q' hq'
    exact (h.distinct q hq).sublist (hsub.map _)
  · intro q' hq' r hr
    obtain ⟨q, hq, hkey, hsub⟩ := hp.buckets q' hq'
    rw [hkey]
    exact h.view q hq r (hsub.mem hr)
  · intro r hr
    exact hp.latest r hr (h.latest r ((hp.live r).mp hr).1)

end

end LiveVotes

lemma prunes_of_filter (f : Int → ViewChangeReq → Bool)
    (hkeep : ∀ q ∈ c.recvViewChangeReq, ∀ r ∈ q.2, f q.1 r = true ↔ keep r)
    (hrecv : ∃ p : Int × List ViewChangeReq → Bool, (∀ q, p q = false → q.2 = []) ∧
      c'.recvViewChangeReq = (c.recvViewChangeReq.map fun q => (q.1, q.2.filter (f q.1))).filter p)
    (hlatest : ∀ r, c'.Live r → c.latestViewChange? r.idx = some r →
      c'.latestViewChange? r.idx = some r) : Prunes keep c c' := by
  obtain ⟨p, hp, hrecv⟩ := hrecv
  have hmem : ∀ q', q' ∈ c'.recvViewChangeReq →
      ∃ q ∈ c.recvViewChangeReq, q' = (q.1, q.2.filter (f q.1)) := by
    intro q' hq'
    rw [hrecv, List.mem_filter, List.mem_map] at hq'
    obtain ⟨⟨q, hq, rfl⟩, -⟩ := hq'
    exact ⟨q, hq, rfl⟩
  refine ⟨?_, ?_, ?_, hlatest⟩
  · rw [hrecv]
    have hsub := (filter_sublist (p := p)
      (l := c.recvViewChangeReq.map fun q => (q.1, q.2.filter (f q.1)))).map fst
    rw [List.map_map] at hsub
    exact hsub
  · intro q' hq'
    obtain ⟨q, hq, rfl⟩ := hmem q' hq'
    exact ⟨q, hq, rfl, filter_sublist⟩
  · intro r
    constructor
    · intro hr
      obtain ⟨q', hq', hr'⟩ := hr
      obtain ⟨q, hq, rfl⟩ := hmem q' hq'
      have hfr := mem_filter.mp hr'
      exact ⟨⟨q, hq, hfr.1⟩, (hkeep q hq r hfr.1).mp hfr.2⟩
    · intro hr
      obtain ⟨⟨q, hq, hmemr⟩, hk⟩ := hr
      have hin : r ∈ q.2.filter (f q.1) := mem_filter.mpr ⟨hmemr, (hkeep q hq r hmemr).mpr hk⟩
      refine ⟨(q.1, q.2.filter (f q.1)), ?_, hin⟩
      rw [hrecv, List.mem_filter, List.mem_map]
      refine ⟨⟨q, hq, rfl⟩, ?_⟩
      by_contra hfalse
      have hnil : q.2.filter (f q.1) = [] :=
        hp (q.1, q.2.filter (f q.1)) (by simpa using hfalse)
      rw [hnil] at hin
      cases hin

lemma latest_filter (keep : ViewChangeReq → Bool)
    (hc : c'.latestViewChangeReqCache = c.latestViewChangeReqCache.filter keep)
    (hr : keep r = true) (h : c.latestViewChange? r.idx = some r) : c'.latestViewChange? r.idx = some r := by
  unfold latestViewChange? at h ⊢
  rw [hc]
  exact find?_filter_of_some h hr

lemma prunes_of_recv (hrecv : c'.recvViewChangeReq = c.recvViewChangeReq) (hkeep : ∀ r, c.Live r → keep r)
    (hlatest : ∀ r, c.Live r → c.latestViewChange? r.idx = some r → c'.latestViewChange? r.idx = some r) :
    Prunes keep c c' := by
  have hlive : ∀ r, c'.Live r ↔ c.Live r := fun r => by rw [Live, hrecv, Live]
  refine ⟨by rw [hrecv], fun q hq => ⟨q, hrecv ▸ hq, rfl, refl _⟩, fun r => ?_, fun r hr => hlatest r ((hlive r).mp hr)⟩
  rw [hlive, and_iff_left_of_imp (hkeep r)]

lemma prunes_of_eq (hrecv : c'.recvViewChangeReq = c.recvViewChangeReq)
    (hlatest : c'.latestViewChangeReqCache = c.latestViewChangeReqCache) : Prunes (fun _ => True) c c' := by
  refine prunes_of_recv hrecv (fun _ _ => trivial) fun r _ h => ?_
  rwa [latestViewChange?, hlatest]

lemma prunes_eraseLatest (hno : ∀ r, c.Live r → r.idx ≠ i) : Prunes (fun _ => True) c (c.eraseLatest i) :=
  prunes_of_recv rfl (fun _ _ => trivial) fun r hr => latest_filter (fun x => x.idx != i) rfl (by simpa using hno r hr)

lemma prunes_delInvalidViewChange (E : Env) (c : PBFTReqCache) (highest : BlockHeader) :
    Prunes (fun r => isStale E highest r = false) c (c.delInvalidViewChange E highest) := by
  refine prunes_of_filter (fun _ r => !isStale E highest r) ?_ ⟨fun q => !q.2.isEmpty, ?_, rfl⟩
    (fun r _ h => h)
  · intro q _ r _
    simp
  · intro q hq
    simpa using hq

lemma updateViewBucket_filter (c : PBFTReqCache) (view : Int) (f : ViewChangeReq → Bool) :
    (c.updateViewBucket view (filter f)).recvViewChangeReq = (c.recvViewChangeReq.map fun q =>
        (q.1, q.2.filter fun r => !decide (q.1 = view) || f r)).filter fun _ => true := by
  rw [filter_true]
  apply map_congr_left
  intro q _
  by_cases hkey : q.1 = view
  · rw [if_pos hkey]
    simp [hkey]
  · rw [if_neg hkey]
    simp [hkey]

lemma prunes_removeInvalidViewChange {E : Env} {highest : BlockHeader} (view : Int)
    (hfresh : ∀ r, c.Live r → isStale E highest r = false) :
    Prunes (fun _ => True) c (c.removeInvalidViewChange E view highest) := by
  unfold removeInvalidViewChange
  split
  · exact prunes_of_eq rfl rfl
  refine prunes_of_filter (fun v r => !decide (v = view) || !isStale E highest r) ?_
    ⟨fun _ => true, by simp, updateViewBucket_filter c view _⟩ ?_
  · intro q hq r hr
    simp [hfresh r ⟨q, hq, hr⟩]
  · intro r hr h
    refine latest_filter (fun x => !isStale E highest x) rfl ?_ h
    have hlive : c.Live r := by
      obtain ⟨q', hq', hr'⟩ := hr
      obtain ⟨q, hq, rfl⟩ := mem_map.mp hq'
      refine ⟨q, hq, ?_⟩
      split at hr'
      · exact (mem_filter.mp hr').1
      · exact hr'
    simp [hfresh r hlive]

lemma prunes_collectGarbage (E : Env) (c : PBFTReqCache) (highest : BlockHeader) :
    Prunes (fun r => isStale E highest r = false) c (c.collectGarbage E highest) := by
  have hdel := prunes_delInvalidViewChange E c highest
  refine ⟨hdel.keys, hdel.buckets, hdel.live, fun r hr h => ?_⟩
  refine latest_filter (fun x => !isStale E highest x) rfl ?_ h
  have hstale := ((hdel.live r).mp hr).2
  simp [hstale]

lemma prunes_triggerViewChange (h : c.LiveVotes) (view highest : Int) :
    Prunes (fun r => view < r.view) c (c.triggerViewChange view highest) := by
  have hrecv : (c.triggerViewChange view highest).recvViewChangeReq =
      c.recvViewChangeReq.filter fun q => decide (view < q.1) := rfl
  have hlive : ∀ r, (c.triggerViewChange view highest).Live r ↔ c.Live r ∧ view < r.view := by
    intro r
    constructor
    · intro hr
      obtain ⟨q, hq, hmem⟩ := hr
      rw [hrecv, mem_filter, decide_eq_true_eq] at hq
      exact ⟨⟨q, hq.1, hmem⟩, by rw [h.view q hq.1 r hmem]; exact hq.2⟩
    · intro hr
      obtain ⟨⟨q, hq, hmem⟩, hlt⟩ := hr
      refine ⟨q, ?_, hmem⟩
      rw [hrecv, mem_filter, decide_eq_true_eq]
      exact ⟨hq, by rw [← h.view q hq r hmem]; exact hlt⟩
  refine ⟨?_, ?_, hlive, ?_⟩
  · rw [hrecv]
    exact filter_sublist.map _
  · intro q hq
    rw [hrecv, mem_filter] at hq
    exact ⟨q, hq.1, rfl, refl _⟩
  · intro r hr hlatest
    have hlt := ((hlive r).mp hr).2
    exact latest_filter (fun x => decide (view < x.view)) rfl (by simpa using hlt) hlatest

lemma prunes_eraseExpiredViewChange (h : c.LiveVotes) (req : ViewChangeReq) :
    Prunes (fun r => r.idx ≠ req.idx) c (c.eraseExpiredViewChange req) := by
  have hsame (hno : ∀ r, c.Live r → r.idx ≠ req.idx) : Prunes (fun r => r.idx ≠ req.idx) c c :=
    prunes_of_recv rfl hno fun _ _ hr => hr
  unfold eraseExpiredViewChange
  cases hlatest : c.latestViewChange? req.idx with
  | none =>
    exact hsame (h.not_live_of_latest hlatest)
  | some v =>
    -- a live request of the sealer is the latest one, and so in its bucket
    have hlive := h.eq_latest hlatest
    dsimp only
    cases hfind : (c.viewBucket v.view).find? fun r => r.idx == req.idx with
    | none =>
      refine hsame fun r hr hidx => ?_
      obtain rfl := hlive r hr hidx
      have hmem := h.mem_viewBucket.mpr ⟨hr, rfl⟩
      have hno := find?_eq_none.mp hfind r hmem
      exact hno (by simpa using hidx)
    | some v' =>
      have hmem := mem_of_find?_eq_some hfind
      have hidx' : v'.idx = req.idx := by simpa using find?_some hfind
      have hv' : v' = v := hlive v' (h.mem_viewBucket.mp hmem).1 hidx'
      dsimp only
      rw [if_pos hv'.symm]
      refine prunes_of_filter (fun k r => !decide (k = v.view) || r.idx != req.idx) ?_
        ⟨fun _ => true, by simp, updateViewBucket_filter c v.view _⟩ ?_
      · intro q hq r hr
        by_cases hidx : r.idx = req.idx
        · obtain rfl := hlive r ⟨q, hq, hr⟩ hidx
          simp [hidx, h.view q hq r hr]
        · simp [hidx]
      · intro r hr hr'
        refine latest_filter (fun x => x.idx != req.idx) rfl ?_ hr'
        obtain ⟨q', hq', hrq⟩ := hr
        obtain ⟨q, hq, rfl⟩ := mem_map.mp hq'
        split at hrq
        · exact (mem_filter.mp hrq).2
        rename_i hkey
        have hne : r.idx ≠ req.idx := by
          intro hidx
          obtain rfl := hlive r ⟨q, hq, hrq⟩ hidx
          exact hkey (h.view q hq r hrq).symm
        simpa using hne

lemma Prunes.trans {c'' : PBFTReqCache} (h : Prunes keep c c') (h' : Prunes keep c' c'') : Prunes keep c c'' := by
  refine ⟨h'.keys.trans h.keys, fun q'' hq'' => ?_, fun r => ?_, fun r hr hlatest => ?_⟩
  · obtain ⟨q', hq', hkey', hsub'⟩ := h'.buckets q'' hq''
    obtain ⟨q, hq, hkey, hsub⟩ := h.buckets q' hq'
    exact ⟨q, hq, hkey'.trans hkey, hsub'.trans hsub⟩
  · rw [h'.live, h.live, and_assoc, and_self]
  · have hr' := ((h'.live r).mp hr).1
    exact h'.latest r hr (h.latest r hr' hlatest)

def file (c : PBFTReqCache) (req : ViewChangeReq) : PBFTReqCache :=
  { (c.insertViewChange req).eraseLatest req.idx with
    latestViewChangeReqCache :=
      req :: ((c.insertViewChange req).eraseLatest req.idx).latestViewChangeReqCache }

lemma latestViewChange?_file_self : (c.file req).latestViewChange? req.idx = some req := by
  exact find?_cons_of_pos (by simp)

lemma insertViewChange_latest (c : PBFTReqCache) (req : ViewChangeReq) :
    (c.insertViewChange req).latestViewChangeReqCache = c.latestViewChangeReqCache := by
  unfold insertViewChange updateViewBucket
  split <;> rfl

lemma latestViewChange?_file_of_ne (hne : r.idx ≠ req.idx)
    (h : c.latestViewChange? r.idx = some r) : (c.file req).latestViewChange? r.idx = some r := by
  have hcons : (c.file req).latestViewChange? r.idx =
      (c.latestViewChangeReqCache.filter fun x => x.idx != req.idx).find? fun x => x.idx == r.idx := by
    unfold file latestViewChange? eraseLatest
    rw [find?_cons_of_neg (by simpa using hne.symm), insertViewChange_latest]
  rw [hcons]
  exact find?_filter_of_some h (by simpa using hne)

lemma file_recvViewChangeReq (hno : ∀ r, c.Live r → r.idx ≠ req.idx) :
    (∃ q ∈ c.recvViewChangeReq, q.1 = req.view ∧
      (c.file req).recvViewChangeReq = c.recvViewChangeReq.map fun q =>
        if q.1 = req.view then (q.1, q.2 ++ [req]) else q) ∨ ((∀ q ∈ c.recvViewChangeReq, q.1 ≠ req.view) ∧
      (c.file req).recvViewChangeReq = c.recvViewChangeReq ++ [(req.view, [req])]) := by
  have hrecv : (c.file req).recvViewChangeReq = (c.insertViewChange req).recvViewChangeReq := rfl
  rw [hrecv, insertViewChange]
  split
  · rename_i hfound
    obtain ⟨q, hq⟩ := isSome_iff_exists.mp hfound
    refine .inl ⟨q, mem_of_find?_eq_some hq, by simpa using find?_some hq, ?_⟩
    apply map_congr_left
    intro q' hq'
    have hnew : (q'.2.any fun r => r.idx == req.idx) = false := by
      rw [List.any_eq_false]
      intro r hr
      simpa using hno r ⟨q', hq', hr⟩
    dsimp only
    rw [hnew]
    rfl
  · rename_i hmissing
    refine .inr ⟨fun q hq => ?_, rfl⟩
    rw [Bool.not_eq_true, isSome_eq_false_iff, isNone_iff_eq_none,
      List.find?_eq_none] at hmissing
    simpa using hmissing q hq

section

variable (hno : ∀ r, c.Live r → r.idx ≠ req.idx)

include hno

/-- Every bucket of the new map is an old one, perhaps with the new request at its end. -/
lemma mem_file_recvViewChangeReq {q' : Int × List ViewChangeReq} (hq' : q' ∈ (c.file req).recvViewChangeReq) :
    q' ∈ c.recvViewChangeReq ∨ q' = (req.view, [req]) ∨
      ∃ q ∈ c.recvViewChangeReq, q.1 = req.view ∧ q' = (q.1, q.2 ++ [req]) := by
  rcases file_recvViewChangeReq hno with ⟨_, _, _, heq⟩ | ⟨_, heq⟩
  · rw [heq, List.mem_map] at hq'
    obtain ⟨q, hq, rfl⟩ := hq'
    by_cases hkey : q.1 = req.view
    · rw [if_pos hkey]
      exact .inr (.inr ⟨q, hq, hkey, rfl⟩)
    · rw [if_neg hkey]
      exact .inl hq
  · rw [heq, mem_append, mem_singleton] at hq'
    exact hq'.imp_right .inl

lemma live_file : (c.file req).Live r ↔ r = req ∨ c.Live r := by
  constructor
  · intro hr
    obtain ⟨q', hq', hmem⟩ := hr
    rcases mem_file_recvViewChangeReq hno hq' with hold | rfl | ⟨q, hq, -, rfl⟩
    · exact .inr ⟨q', hold, hmem⟩
    · exact .inl (mem_singleton.mp hmem)
    · rcases mem_append.mp hmem with hr | hr
      · exact .inr ⟨q, hq, hr⟩
      · exact .inl (mem_singleton.mp hr)
  · intro hr
    rcases file_recvViewChangeReq hno with ⟨q₀, hq₀, hkey₀, heq⟩ | ⟨_, heq⟩
    · rcases hr with rfl | ⟨q, hq, hmem⟩
      · refine ⟨(q₀.1, q₀.2 ++ [r]), ?_, by simp⟩
        rw [heq, List.mem_map]
        exact ⟨q₀, hq₀, if_pos hkey₀⟩
      refine ⟨if q.1 = req.view then (q.1, q.2 ++ [req]) else q, ?_, ?_⟩
      · rw [heq]
        exact mem_map_of_mem hq
      · split
        · exact mem_append_left _ hmem
        · exact hmem
    · rcases hr with rfl | ⟨q, hq, hmem⟩
      · exact ⟨(r.view, [r]), by rw [heq]; simp, by simp⟩
      · exact ⟨q, by rw [heq]; exact mem_append_left _ hq, hmem⟩

lemma LiveVotes.file (h : c.LiveVotes) :
    (c.file req).LiveVotes ∧ ∀ r, (c.file req).Live r ↔ r = req ∨ c.Live r := by
  refine ⟨⟨?_, ?_, ?_, ?_⟩, fun r => live_file hno⟩
  · rcases file_recvViewChangeReq hno with ⟨_, _, _, heq⟩ | ⟨hfresh, heq⟩
    · have hkeys : (c.recvViewChangeReq.map fun q =>
          if q.1 = req.view then (q.1, q.2 ++ [req]) else q).map fst =
          c.recvViewChangeReq.map fst := by
        rw [List.map_map]
        apply map_congr_left
        intro q _
        change (if q.1 = req.view then (q.1, q.2 ++ [req]) else q).1 = q.1
        split <;> rfl
      rw [heq, hkeys]
      exact h.keys
    · rw [heq, map_append, map_singleton, nodup_append]
      refine ⟨h.keys, nodup_singleton _, ?_⟩
      intro v hv v' hv' heq'
      obtain ⟨q, hq, rfl⟩ := mem_map.mp hv
      exact hfresh q hq (heq'.trans (mem_singleton.mp hv'))
  · intro q' hq'
    rcases mem_file_recvViewChangeReq hno hq' with hold | rfl | ⟨q, hq, -, rfl⟩
    · exact h.distinct q' hold
    · exact nodup_singleton _
    · rw [map_append, map_singleton, nodup_append]
      refine ⟨h.distinct q hq, nodup_singleton _, ?_⟩
      intro i hi i' hi' heq'
      obtain ⟨r, hr, rfl⟩ := mem_map.mp hi
      exact hno r ⟨q, hq, hr⟩ (heq'.trans (mem_singleton.mp hi'))
  · intro q' hq' r hr
    rcases mem_file_recvViewChangeReq hno hq' with hold | rfl | ⟨q, hq, hkey, rfl⟩
    · exact h.view q' hold r hr
    · rw [mem_singleton.mp hr]
    · rcases mem_append.mp hr with hold | hnew
      · exact h.view q hq r hold
      · rw [mem_singleton.mp hnew]
        exact hkey.symm
  · intro r hr
    rcases (live_file hno).mp hr with rfl | hold
    · exact latestViewChange?_file_self
    · exact latestViewChange?_file_of_ne (hno r hold) (h.latest r hold)

end

/-- `addViewChangeReq` rejects the request, or puts it in the place of its sealer's one, if that has
expired or is for no higher view. -/
theorem addViewChangeReq_spec (h : c.LiveVotes) (req : ViewChangeReq) (n : Int) : c.addViewChangeReq req n = c ∨
      ((c.addViewChangeReq req n).LiveVotes ∧ n ≤ req.height ∧
        (∀ r, (c.addViewChangeReq req n).Live r ↔ r = req ∨ c.Live r ∧ r.idx ≠ req.idx) ∧
        ∀ r, c.Live r → r.idx = req.idx → r.height < n ∨ r.view ≤ req.view) := by
  have hfile : ∀ c₁, Prunes (fun r => r.idx ≠ req.idx) c c₁ → (c₁.file req).LiveVotes ∧
      ∀ r, (c₁.file req).Live r ↔ r = req ∨ c.Live r ∧ r.idx ≠ req.idx := by
    intro c₁ hp
    obtain ⟨hvotes, hlive⟩ := (h.prunes hp).file fun r hr => ((hp.live r).mp hr).2
    exact ⟨hvotes, fun r => by rw [hlive, hp.live]⟩
  have herase := prunes_eraseExpiredViewChange h req
  unfold addViewChangeReq checkViewChangeReq
  by_cases hold : req.height < n
  · rw [if_pos hold]
    exact .inl rfl
  rw [if_neg hold]
  have hheight : n ≤ req.height := not_lt.mp hold
  cases hlatest : c.latestViewChange? req.idx with
  | none =>
    refine .inr ⟨(hfile _ herase).1, hheight, (hfile _ herase).2, fun r hr hidx => ?_⟩
    exact absurd hidx (h.not_live_of_latest hlatest r hr)
  | some v =>
    have hv : v.idx = req.idx := idx_of_latestViewChange? hlatest
    have hlive := h.eq_latest hlatest
    dsimp only
    by_cases hexpired : v.height < n
    · rw [if_pos hexpired]
      have hpv := prunes_eraseExpiredViewChange h v
      have hps := prunes_eraseExpiredViewChange (h.prunes hpv) req
      rw [hv] at hpv
      have hp := hpv.trans hps
      refine .inr ⟨(hfile _ hp).1, hheight, (hfile _ hp).2, fun r hr hidx => ?_⟩
      rw [hlive r hr hidx]
      exact .inl hexpired
    · rw [if_neg hexpired]
      by_cases hlow : req.height < v.height
      · rw [if_pos hlow]
        exact .inl rfl
      rw [if_neg hlow]
      by_cases hback : req.view < v.view
      · rw [if_pos hback]
        exact .inl rfl
      rw [if_neg hback]
      refine .inr ⟨(hfile _ herase).1, hheight, (hfile _ herase).2, fun r hr hidx => ?_⟩
      rw [hlive r hr hidx]
      exact .inr (not_lt.mp hback)

end PBFTReqCache

namespace PBFTEngine

structure VoteCache (E : Env) (s : PBFTEngine) : Prop where
  heights : Heights s
  highest : ∃ bl, s.blockChain.getBlockByNumber s.highestBlock.number = some bl ∧
    bl.header = s.highestBlock
  votes : s.reqCache.LiveVotes
  fresh : ∀ r, s.reqCache.Live r → isStale E s.highestBlock r = false

/-- The node answers no view-change request of a sealer with `catchupView` while another request of
that sealer is in one of its view buckets. -/
def VoteSafe (s : PBFTEngine) (e : Event × Ambient) : Prop :=
  ∀ p req, e.1 = .handleMsg p → CatchesUp s p req → ∀ r, s.reqCache.Live r → r.idx ≠ req.idx

variable {E : Env} {amb : Ambient} {s₀ a b : PBFTEngine} {e : Event}

/-- What a reported block is for the view change: nothing, or a higher block with which view and
requests start afresh. -/
theorem reportBlockWithoutLock_viewCases {bl : Block} (ha : Heights a)
    (hhighest : ∃ bl, a.blockChain.getBlockByNumber a.highestBlock.number = some bl ∧ bl.header = a.highestBlock)
    (hb : a.blockChain.getBlockByNumber bl.header.number = some bl) (hr : a.reportBlockWithoutLock E amb bl = b) :
    (b.highestBlock = a.highestBlock ∧ b.view = a.view ∧ b.toView = a.toView ∧
      bl.header.number ≤ a.highestBlock.number ∧ b.reqCache.recvViewChangeReq = a.reqCache.recvViewChangeReq ∧
      b.reqCache.latestViewChangeReqCache = a.reqCache.latestViewChangeReqCache) ∨
    (a.highestBlock.number < bl.header.number ∧ b.highestBlock = bl.header ∧ b.view = 0 ∧ b.toView = 0 ∧
      b.reqCache.recvViewChangeReq = (a.reqCache.delInvalidViewChange E bl.header).recvViewChangeReq ∧
      b.reqCache.latestViewChangeReqCache = a.reqCache.latestViewChangeReqCache) := by
  subst hr
  have hpos := BlockChain.nonneg_of_getBlockByNumber hb
  have hcons := ha.consensus
  rcases reportBlockWithoutLock_cases with ⟨hr, hskip⟩ | ⟨_, -, htaken, ⟨hnew, hr⟩ | ⟨hlow, hr⟩⟩
  · rw [hr]
    exact .inl ⟨rfl, rfl, rfl, by omega, rfl, rfl⟩
  · rw [hr]
    refine .inr ⟨by omega, rfl, rfl, rfl, ?_, ?_⟩
    · exact delCache_viewChanges.1
    · exact delCache_viewChanges.2
  · -- the genesis block, reported again
    have hreported := ha.reported
    have heq : bl.header.number = a.highestBlock.number := by
      rcases htaken with h0 | h0 <;> omega
    obtain ⟨bl', hbl', hheader⟩ := hhighest
    rw [← heq, hb] at hbl'
    cases hbl'
    rw [hr]
    refine .inl ⟨hheader, rfl, rfl, heq.le, ?_, ?_⟩
    · exact delCache_viewChanges.1
    · exact delCache_viewChanges.2

lemma VoteCache.prunes (ha : VoteCache E a)
    (hstep : SmallStep E amb s₀ e a b) (hp : PBFTReqCache.Prunes keep a.reqCache b.reqCache)
    (hhighest : b.highestBlock = a.highestBlock) : VoteCache E b := by
  obtain ⟨bl, hbl, hheader⟩ := ha.highest
  refine ⟨heights_smallStep hstep ha.heights, ?_, ha.votes.prunes hp, fun r hr => ?_⟩
  · rw [hhighest]
    exact ⟨bl, hstep.getBlockByNumber hbl, hheader⟩
  · rw [hhighest]
    exact ha.fresh r ((hp.live r).mp hr).1

lemma ViewMove.prunes {tv : Int} {rv : List (Int × List ViewChangeReq)} {lv : List ViewChangeReq}
    (h : ViewMove E amb s₀ e a tv rv lv) (ha : VoteCache E a) (hsafe : VoteSafe s₀ (e, amb)) :
    PBFTReqCache.Prunes (fun _ => True) a.reqCache (a.withViewChanges tv rv lv).reqCache := by
  cases h with
  | catchup p req he hs hcatch =>
    subst hs
    have hno := hsafe p req he hcatch
    have hp := prunes_eraseLatest hno
    exact ⟨hp.keys, hp.buckets, hp.live, hp.latest⟩
  | timeout =>
    have hp := prunes_removeInvalidViewChange (a.toView + 1) ha.fresh
    exact ⟨hp.keys, hp.buckets, hp.live, hp.latest⟩
  | _ => exact prunes_of_eq rfl rfl

lemma isStale_of_validViewChange (h : ValidViewChange E a req) : isStale E a.highestBlock req = false := by
  have hheight := h.height
  unfold isStale
  by_cases heq : req.height = a.highestBlock.number
  · simp [heq, h.hash heq]
  · simp [heq, hheight]

lemma voteCache_smallStep (hsafe : VoteSafe s₀ (e, amb)) (h : SmallStep E amb s₀ e a b)
    (ha : VoteCache E a) : VoteCache E b := by
  cases h.viewStep with
  | move b tv rv lv hmove hframe =>
    have hp := (hmove.prunes ha hsafe).trans
      (prunes_of_eq hframe.recvViewChangeReq hframe.latestViewChangeReqCache)
    exact ha.prunes h hp hframe.highestBlock
  | vote p req he hkind hdecode hvalid =>
    have hstale := isStale_of_validViewChange hvalid
    rcases addViewChangeReq_spec ha.votes req a.blockChain.number with
      hsame | ⟨hvotes, -, hlive, -⟩
    · exact ha.prunes h (prunes_of_eq (by rw [hsame]) (by rw [hsame])) rfl
    · refine ⟨heights_smallStep h ha.heights, ha.highest, hvotes, fun r hr => ?_⟩
      rcases (hlive r).mp hr with rfl | ⟨hold, -⟩
      · exact hstale
      · exact ha.fresh r hold
  | change =>
    exact ha.prunes h (prunes_triggerViewChange ha.votes a.toView a.blockChain.number) rfl
  | report bl hb =>
    rcases reportBlockWithoutLock_viewCases ha.heights ha.highest hb rfl with
      ⟨hhighest, -, -, -, hrecv, hlatest⟩ | ⟨-, hhighest, -, -, hrecv, hlatest⟩
    · exact ha.prunes h (prunes_of_eq hrecv hlatest) hhighest
    · have hdel := prunes_delInvalidViewChange E a.reqCache bl.header
      have hsame := prunes_of_eq
        (c := a.reqCache.delInvalidViewChange E bl.header) hrecv hlatest
      refine ⟨heights_smallStep h ha.heights, ?_, (ha.votes.prunes hdel).prunes hsame, fun r hr => ?_⟩
      · rw [hhighest]
        exact ⟨bl, h.getBlockByNumber hb, rfl⟩
      · rw [hhighest]
        exact ((hdel.live r).mp ((hsame.live r).mp hr).1).2
  | reset =>
    obtain ⟨_, hr, -⟩ := resetConfig_cases amb a
    refine ha.prunes h (prunes_of_eq ?_ ?_) ?_ <;> rw [hr]
  | garbage =>
    exact ha.prunes h (prunes_collectGarbage E a.reqCache a.highestBlock) rfl

lemma voteCache_start {cfg : NodeConfig} {backup : Option WireMsg} : VoteCache E (start E amb cfg backup) := by
  have hfresh := fresh_start E amb cfg backup
  have hno : ∀ r, ¬(start E amb cfg backup).reqCache.Live r := by
    rintro r ⟨q, hq, -⟩
    rw [hfresh.recvViewChangeReq] at hq
    cases hq
  refine ⟨heights_start E amb cfg backup, ?_, ⟨?_, ?_, ?_, fun r hr => absurd hr (hno r)⟩,
    fun r hr => absurd hr (hno r)⟩
  · obtain ⟨_, h, -⟩ := start_cases E amb cfg backup
    rw [h]
    refine ⟨cfg.blockChain.head, ?_, rfl⟩
    rw [cfg.blockChain.head_number]
    exact cfg.blockChain.getBlockByNumber_number
  · rw [hfresh.recvViewChangeReq]
    exact nodup_nil
  · rw [hfresh.recvViewChangeReq]
    exact fun q hq => absurd hq not_mem_nil
  · rw [hfresh.recvViewChangeReq]
    exact fun q hq => absurd hq not_mem_nil

/-- As long as no sealer with a cached request is answered by `catchupView`, every sealer is counted
for one view at most, the one of its latest request. -/
theorem oneLiveVote_of_voteSafe (E : Env) (amb : Ambient) (cfg : NodeConfig)
    (backup : Option WireMsg) (es : List (Event × Ambient))
    (h : Along (step E) VoteSafe (start E amb cfg backup) es) :
    (run (step E) (start E amb cfg backup) es).reqCache.OneLiveVote := by
  have hinv := invariant_run (VoteCache E)
    (fun s e hsafe hs => invariant_step (VoteCache E) (fun _ _ => voteCache_smallStep hsafe) hs)
    voteCache_start h
  exact hinv.votes.oneLiveVote

end PBFTEngine

namespace Symbolic

open PBFTEngine

def viewChange (idx : Nat) (view : Int) : Event × Ambient :=
  let m := signed env (sealers.getD idx 0) 0 view idx (genesis.hash env) {}
  deliver .ViewChangeReqPacket false
    { height := m.height, view := m.view, idx := m.idx, timestamp := m.timestamp
      blockHash := m.blockHash, sig := m.sig, sig2 := m.sig2 }

def timeout (now : Nat) : Event × Ambient :=
  (.checkTimeout, { ambient with steadyTime := now })

lemma voteSafe_timeout {now : Nat} : VoteSafe s (timeout now) := by
  intro p req he
  cases he

lemma CatchesUp.of_viewChange {p : PBFTMsgPacket} {idx : Nat}
    {view : Int} (he : (viewChange idx view).1 = .handleMsg p) (h : CatchesUp s p req) : view + 1 < s.toView := by
  have hreq := (decodeToMsg_deliver he h.decode).2
  have hbehind := h.behind
  rw [hreq] at hbehind
  exact hbehind

/-- After the timeouts the node wants view 3. A sealer that asks for view 5 and then for view 1 is
answered with the view wanted, and is counted for both. -/
theorem not_oneLiveVote_of_catchup :
    ¬(run (step env) (node 12)
      [timeout (10 ^ 4), timeout (10 ^ 5), timeout (10 ^ 6), viewChange 0 5,
        viewChange 0 1]).reqCache.OneLiveVote := by
  decide +kernel

theorem oneLiveVote_of_voteSafe_node :
    (run (step env) (node 12)
        [timeout (10 ^ 4), timeout (10 ^ 5), timeout (10 ^ 6), viewChange 0 1,
          viewChange 2 3]).reqCache.viewBucket 1 ≠ [] ∧
      (run (step env) (node 12)
        [timeout (10 ^ 4), timeout (10 ^ 5), timeout (10 ^ 6), viewChange 0 1,
          viewChange 2 3]).reqCache.OneLiveVote := by
  refine ⟨by decide +kernel, oneLiveVote_of_voteSafe env ambient _ none _ ?_⟩
  refine ⟨voteSafe_timeout, voteSafe_timeout, voteSafe_timeout, ?_, ?_, trivial⟩
  · -- the node answers, but it has no request of anyone
    rintro p req - - r ⟨q, hq, -⟩
    have hq' : q ∈ (run (step env) (node 12)
        [timeout (10 ^ 4), timeout (10 ^ 5), timeout (10 ^ 6)]).reqCache.recvViewChangeReq := hq
    cases hq'
  · intro p req he hcatch
    have hlt := CatchesUp.of_viewChange he hcatch
    have hview : (run (step env) (node 12)
        [timeout (10 ^ 4), timeout (10 ^ 5), timeout (10 ^ 6), viewChange 0 1]).toView = 3 := by
      decide +kernel
    have hlt' : (3 : Int) + 1 < (run (step env) (node 12)
        [timeout (10 ^ 4), timeout (10 ^ 5), timeout (10 ^ 6), viewChange 0 1]).toView := hlt
    omega

end Symbolic

end FiscoBcos
