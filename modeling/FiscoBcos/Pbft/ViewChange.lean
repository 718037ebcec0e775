import Mathlib.Data.Prod.Lex
import FiscoBcos.Pbft.ViewVotes

/-!
# The change of the view

The requests that let the node jump ahead (`canTriggerViewChange`) cannot also be among those it counts for the view it
jumps to, so it never gets there without asking. The view it jumps to depends on the order in which the requests are met
once the lowest of them has been superseded by its own sealer.
-/

namespace FiscoBcos

open List Option PBFTReqCache FastViewChange Machine Prod

variable {s : PBFTEngine} {toView view : Int}

namespace PBFTReqCache

variable {c : PBFTReqCache}

structure FastViewChange.Found (c : PBFTReqCache) (toView : Int) (w : FastViewChange) : Prop where
  distinct : (w.idxViewMap.map fst).Nodup
  live : ∀ q ∈ w.idxViewMap, ∃ r, c.Live r ∧ r.idx = q.1 ∧ w.minView ≤ r.view
  above : toView < w.minView
  bounded : w.minView ≤ MAXVIEW

lemma FastViewChange.Found.visit {highest : Int} {w : FastViewChange} {r : ViewChangeReq} (h : w.Found c toView)
    (hr : c.Live r) (hview : r.view = view) (habove : toView < view) : (w.visit highest view r).Found c toView := by
  unfold FastViewChange.visit
  dsimp only
  split
  · refine ⟨?_, fun q hq => ?_, lt_min h.above habove, (min_le_left _ _).trans h.bounded⟩
    · rw [map_cons, nodup_cons]
      refine ⟨fun hmem => ?_, h.distinct.sublist (filter_sublist.map _)⟩
      obtain ⟨q, hq, hidx⟩ := mem_map.mp hmem
      have hne := (mem_filter.mp hq).2
      simp [hidx] at hne
    · rcases mem_cons.mp hq with rfl | hold
      · exact ⟨r, hr, rfl, by rw [hview]; exact min_le_right _ _⟩
      · obtain ⟨r', hr', hidx, hmin⟩ := h.live q (mem_filter.mp hold).1
        exact ⟨r', hr', hidx, (min_le_left _ _).trans hmin⟩
  · exact h

variable {c' : PBFTReqCache} {highest : Int} {l : List (Int × ViewChangeReq)}

/-- The requests that `canTriggerViewChange` does not skip, each with its view. -/
def eligible (c : PBFTReqCache) (toView highest : Int) : List (Int × ViewChangeReq) :=
  c.recvViewChangeReq.flatMap fun q =>
    if toView < q.1 then (q.2.filter fun r => highest ≤ r.height).map (q.1, ·) else []

section

variable (l : List (Int × ViewChangeReq))

def sealersOf : Finset Nat :=
  (l.map (·.2.idx)).toFinset

/-- The requests that no larger one of the same sealer supersedes. -/
def latest : List (Int × ViewChangeReq) :=
  l.filter fun p => ∀ q ∈ l, q.2.idx = p.2.idx → q.1 ≤ p.1

def lowestView : Int :=
  (l.map fst).foldl min MAXVIEW

def lowestHeight : Int :=
  (l.map (·.2.height)).foldl min (2 ^ 63 - 1)

end

/-- The same maps, walked through in another order. -/
def Reordered : List (Int × List ViewChangeReq) → List (Int × List ViewChangeReq) → Prop :=
  Relation.Comp Perm (Forall₂ fun p q => p.1 = q.1 ∧ p.2 ~ q.2)

lemma Reordered.eligible (h : Reordered c.recvViewChangeReq c'.recvViewChangeReq) :
    c.eligible toView highest ~ c'.eligible toView highest := by
  obtain ⟨m, hperm, hbuckets⟩ := h
  unfold PBFTReqCache.eligible
  generalize c'.recvViewChangeReq = m' at hbuckets
  refine (hperm.flatMap_right _).trans ?_
  clear hperm
  induction hbuckets with
  | nil => rfl
  | cons hq _ ih =>
    rw [flatMap_cons, flatMap_cons, hq.1]
    refine Perm.append ?_ ih
    split
    · exact (hq.2.filter _).map _
    · rfl

lemma of_mem_eligible {p : Int × ViewChangeReq} (hp : p ∈ c.eligible toView highest) :
    (∃ q ∈ c.recvViewChangeReq, q.1 = p.1 ∧ p.2 ∈ q.2) ∧ toView < p.1 ∧ highest ≤ p.2.height := by
  obtain ⟨q, hq, hp⟩ := mem_flatMap.mp hp
  split at hp
  · rename_i habove
    obtain ⟨r, hr, rfl⟩ := mem_map.mp hp
    obtain ⟨hmem, hheight⟩ := mem_filter.mp hr
    exact ⟨⟨q, hq, rfl, hmem⟩, habove, of_decide_eq_true hheight⟩
  · cases hp

lemma foldl_visit_eligible : c.recvViewChangeReq.foldl (fun w q =>
      if toView < q.1 then q.2.foldl (fun w r => w.visit highest q.1 r) w else w) ({} : FastViewChange) =
    (c.eligible toView highest).foldl (fun w p => w.visit highest p.1 p.2) {} := by
  rw [eligible, foldl_flatMap]
  congr
  funext w q
  split
  · rw [foldl_map, foldl_filter]
    congr
    funext w r
    unfold visit
    split <;> simp_all
  · rfl

lemma canTriggerViewChange_spec (h : c.LiveVotes) {f : Nat} {v : Int} {highest : BlockHeader}
    {consensusBlockNumber : Int} (hbound : toView < MAXVIEW)
    (htrigger : c.canTriggerViewChange f toView highest consensusBlockNumber = (true, v)) : toView < v ∧ v ≤ MAXVIEW ∧
      ∃ idxs : Finset Nat, f < idxs.card ∧ ∀ i ∈ idxs, ∃ r, c.Live r ∧ r.idx = i ∧ v ≤ r.view := by
  have hfound : ((c.eligible toView highest.number).foldl (fun w p => w.visit highest.number p.1 p.2)
      ({} : FastViewChange)).Found c toView := by
    refine foldlRecOn _ _ ⟨nodup_nil, fun q hq => absurd hq not_mem_nil, hbound, le_rfl⟩ fun w hw p hp => ?_
    obtain ⟨⟨q, hq, hview, hr⟩, habove, -⟩ := of_mem_eligible hp
    exact hw.visit ⟨q, hq, hr⟩ ((h.view q hq p.2 hr).trans hview) habove
  rw [canTriggerViewChange, foldl_visit_eligible] at htrigger
  generalize (c.eligible toView highest.number).foldl _ ({} : FastViewChange) = w at hfound htrigger
  obtain ⟨hcount, rfl⟩ := Prod.mk.inj htrigger
  rw [Bool.and_eq_true, decide_eq_true_eq] at hcount
  refine ⟨hfound.above, hfound.bounded, (w.idxViewMap.map fst).toFinset, ?_, fun i hi => ?_⟩
  · rw [toFinset_card_of_nodup hfound.distinct, length_map]
    exact hcount.1.trans_le (Nat.mod_le _ _)
  · obtain ⟨q, hq, rfl⟩ := mem_map.mp (mem_toFinset.mp hi)
    exact hfound.live q hq

lemma le_foldl_min {x a : Int} {l : List Int} : x ≤ l.foldl min a ↔ x ≤ a ∧ ∀ y ∈ l, x ≤ y := by
  induction l generalizing a with
  | nil => simp
  | cons y l ih => rw [foldl_cons, ih, le_min_iff, forall_mem_cons, and_assoc]

lemma le_lowestView {x : Int} : x ≤ lowestView l ↔ x ≤ MAXVIEW ∧ ∀ p ∈ l, x ≤ p.1 := by
  rw [lowestView, le_foldl_min, List.forall_mem_map]

lemma le_lowestHeight {x : Int} : x ≤ lowestHeight l ↔ x ≤ 2 ^ 63 - 1 ∧ ∀ p ∈ l, x ≤ p.2.height := by
  rw [lowestHeight, le_foldl_min, List.forall_mem_map]

/-- A request is taken unless one for the same or a larger view of its sealer has been met, or it is too old. -/
lemma FastViewChange.visit_cases (w : FastViewChange) (highest view : Int) (r : ViewChangeReq) :
    w.visit highest view r = w ∧ ((∃ q ∈ w.idxViewMap, q.1 = r.idx ∧ view ≤ q.2) ∨ r.height < highest) ∨
      w.visit highest view r = ⟨(r.idx, view) :: w.idxViewMap.filter fun q => q.1 != r.idx, min w.minView view,
        min w.minHeight r.height⟩ := by
  unfold visit
  dsimp only
  split
  case isTrue => exact .inr rfl
  case isFalse htaken =>
    refine .inl ⟨rfl, ?_⟩
    cases hfind : w.idxViewMap.find? fun q => q.1 == r.idx with
    | none =>
      rw [hfind] at htaken
      exact .inr (by simpa using htaken)
    | some q =>
      rw [hfind] at htaken
      have hidx := find?_some hfind
      simp only [all_some, Bool.and_eq_true, decide_eq_true_eq, not_and_or, not_lt, not_le] at htaken
      exact htaken.imp_left fun hview => ⟨q, mem_of_find?_eq_some hfind, by simpa using hidx, hview⟩

/-- `canTriggerViewChange` after it has met the requests of `l`: one entry for every sealer, with a view that it asked for,
and minima that are not below those of all requests. -/
structure FastViewChange.Met (l : List (Int × ViewChangeReq)) (w : FastViewChange) : Prop where
  distinct : (w.idxViewMap.map fst).Nodup
  sealers : ∀ i, i ∈ w.idxViewMap.map fst ↔ i ∈ l.map (·.2.idx)
  views : ∀ q ∈ w.idxViewMap, ∃ p ∈ l, p.2.idx = q.1 ∧ p.1 = q.2
  minView : lowestView l ≤ w.minView ∧ w.minView ≤ MAXVIEW
  minHeight : lowestHeight l ≤ w.minHeight ∧ w.minHeight ≤ 2 ^ 63 - 1

variable (highest) in
def FastViewChange.walk (l : List (Int × ViewChangeReq)) : FastViewChange :=
  l.foldl (fun w p => w.visit highest p.1 p.2) {}

lemma FastViewChange.met_walk (hheight : ∀ p ∈ l, highest ≤ p.2.height) : (walk highest l).Met l := by
  induction l using reverseRecOn with
  | nil => exact ⟨nodup_nil, by simp [walk], nofun, ⟨le_rfl, le_rfl⟩, le_rfl, le_rfl⟩
  | append_singleton l p ih =>
    obtain ⟨hold, hp⟩ := forall_mem_append.mp hheight
    obtain ⟨hdistinct, hsealers, hviews, hview, hmin⟩ := ih hold
    have hlowest : lowestView (l ++ [p]) = min (lowestView l) p.1 := by simp [lowestView]
    have hlowest' : lowestHeight (l ++ [p]) = min (lowestHeight l) p.2.height := by simp [lowestHeight]
    have hwalk : walk highest (l ++ [p]) = (walk highest l).visit highest p.1 p.2 := foldl_concat ..
    rw [hwalk]
    rcases (walk highest l).visit_cases highest p.1 p.2 with ⟨heq, hskip⟩ | heq
    · obtain ⟨q, hq, hidx, -⟩ := hskip.resolve_right (not_lt.mpr (hp p (mem_singleton_self p)))
      rw [heq]
      refine ⟨hdistinct, fun i => ?_, fun q hq => ?_, ⟨?_, hview.2⟩, ?_, hmin.2⟩
      · rw [hsealers i, map_append, mem_append]
        refine ⟨.inl, fun h => h.elim id fun hi => ?_⟩
        rw [show i = p.2.idx by simpa using hi, ← hidx]
        exact (hsealers _).mp (mem_map_of_mem hq)
      · obtain ⟨p', hp', h⟩ := hviews q hq
        exact ⟨p', mem_append_left _ hp', h⟩
      · rw [hlowest]
        exact (min_le_left _ _).trans hview.1
      · rw [hlowest']
        exact (min_le_left _ _).trans hmin.1
    · rw [heq]
      refine ⟨?_, fun i => ?_, fun q hq => ?_, ⟨?_, (min_le_left _ _).trans hview.2⟩, ?_, (min_le_left _ _).trans hmin.2⟩
      · rw [map_cons, nodup_cons]
        refine ⟨fun hmem => ?_, hdistinct.sublist (filter_sublist.map _)⟩
        obtain ⟨q, hq, hidx⟩ := mem_map.mp hmem
        simpa [hidx] using (mem_filter.mp hq).2
      · simp only [map_cons, mem_cons, map_append, mem_append, map_nil, not_mem_nil, or_false, ← hsealers i,
          List.mem_map, List.mem_filter]
        grind
      · rcases mem_cons.mp hq with rfl | hq
        · exact ⟨p, mem_append_right _ (mem_singleton_self p), rfl, rfl⟩
        · obtain ⟨p', hp', h⟩ := hviews q (mem_filter.mp hq).1
          exact ⟨p', mem_append_left _ hp', h⟩
      · rw [hlowest]
        exact min_le_min_right _ hview.1
      · rw [hlowest']
        exact min_le_min_right _ hmin.1

lemma FastViewChange.Met.length_idxViewMap {w : FastViewChange} (h : w.Met l) : w.idxViewMap.length = (sealersOf l).card := by
  have hkeys : (w.idxViewMap.map fst).toFinset = sealersOf l := by
    ext i
    simpa [sealersOf] using h.sealers i
  rw [← hkeys, toFinset_card_of_nodup h.distinct, length_map]

lemma FastViewChange.minima_visit_le (highest : Int) (w : FastViewChange) (p : Int × ViewChangeReq) :
    (w.visit highest p.1 p.2).minView ≤ w.minView ∧ (w.visit highest p.1 p.2).minHeight ≤ w.minHeight := by
  rcases w.visit_cases highest p.1 p.2 with ⟨heq, -⟩ | heq <;> rw [heq]
  · exact ⟨le_rfl, le_rfl⟩
  · exact ⟨min_le_left _ _, min_le_left _ _⟩

/-- A request counts if those of its sealer that were met before are for smaller views. -/
lemma FastViewChange.minima_walk_le (hheight : ∀ p ∈ l, highest ≤ p.2.height) {before after : List (Int × ViewChangeReq)}
    {p : Int × ViewChangeReq} (hl : l = before ++ p :: after) (hfirst : ∀ q ∈ before, q.2.idx = p.2.idx → q.1 < p.1) :
    (walk highest l).minView ≤ p.1 ∧ (walk highest l).minHeight ≤ p.2.height := by
  have hmet : (walk highest before).Met before := met_walk fun q hq => hheight q (hl ▸ mem_append_left _ hq)
  have hp : highest ≤ p.2.height := hheight p (hl ▸ mem_append_right _ mem_cons_self)
  have htaken : ((walk highest before).visit highest p.1 p.2).minView ≤ p.1 ∧
      ((walk highest before).visit highest p.1 p.2).minHeight ≤ p.2.height := by
    rcases (walk highest before).visit_cases highest p.1 p.2 with ⟨-, ⟨q, hq, hidx, hle⟩ | hlow⟩ | heq
    · obtain ⟨p', hp', hsame, hview⟩ := hmet.views q hq
      exact absurd (hfirst p' hp' (hsame.trans hidx)) (by rw [hview]; exact not_lt.mpr hle)
    · exact absurd hp (not_le.mpr hlow)
    · rw [heq]
      exact ⟨min_le_right _ _, min_le_right _ _⟩
  rw [hl, walk, foldl_append, foldl_cons]
  refine foldlRecOn (motive := fun w : FastViewChange => w.minView ≤ p.1 ∧ w.minHeight ≤ p.2.height) after _ htaken fun w hw q _ => ?_
  obtain ⟨hview, hmin⟩ := minima_visit_le highest w q
  exact ⟨hview.trans hw.1, hmin.trans hw.2⟩

/-- The unordered maps: one bucket for a view, and in it one request of a sealer. -/
structure KeyedVotes (m : List (Int × List ViewChangeReq)) : Prop where
  views : m.Pairwise fun p q => p.1 ≠ q.1
  sealers : ∀ q ∈ m, q.2.Pairwise fun r r' => r.idx ≠ r'.idx

lemma pairwise_eligible (toView highest : Int) {R : Int → Int → Prop} (h : KeyedVotes c.recvViewChangeReq)
    (horder : c.recvViewChangeReq.Pairwise fun p q => R p.1 q.1) : (c.eligible toView highest).Pairwise fun p q =>
      p.2.idx = q.2.idx → R p.1 q.1 := by
  refine pairwise_flatMap.mpr ⟨fun q hq => ?_, horder.imp_of_mem fun {p q} _ _ hR a ha b hb _ => ?_⟩
  · split
    · refine pairwise_map.mpr (((h.sealers q hq).filter _).imp fun hne heq => absurd heq hne)
    · exact .nil
  · split at ha
    · split at hb
      · obtain ⟨r, -, rfl⟩ := mem_map.mp ha
        obtain ⟨r', -, rfl⟩ := mem_map.mp hb
        exact hR
      · cases hb
    · cases ha

lemma Reordered.keyed {m m' : List (Int × List ViewChangeReq)} (h : Reordered m m') (hm : KeyedVotes m) :
    KeyedVotes m' := by
  obtain ⟨m₁, hperm, hbuckets⟩ := h
  have hm₁ : KeyedVotes m₁ :=
    ⟨hperm.pairwise hm.views Ne.symm, fun q hq => hm.sealers q (hperm.mem_iff.mpr hq)⟩
  clear hperm hm
  induction hbuckets with
  | nil => exact hm₁
  | @cons p q m₁ m' hpq hrest ih =>
    obtain ⟨hfirst, hviews⟩ := pairwise_cons.mp hm₁.views
    obtain ⟨hbucket, hsealers⟩ := forall_mem_cons.mp hm₁.sealers
    obtain ⟨hviews', hsealers'⟩ := ih ⟨hviews, hsealers⟩
    refine ⟨pairwise_cons.mpr ⟨fun q' hq' => ?_, hviews'⟩,
      forall_mem_cons.mpr ⟨hpq.2.pairwise hbucket Ne.symm, hsealers'⟩⟩
    obtain ⟨i, hi, rfl⟩ := getElem_of_mem hq'
    obtain ⟨hlen, hget⟩ := forall₂_iff_get.mp hrest
    exact fun heq => hfirst _ (getElem_mem _) (hpq.1.trans (heq.trans (hget i (hlen ▸ hi) hi).1.symm))

lemma latest_perm {l' : List (Int × ViewChangeReq)} (h : l ~ l') : latest l ~ latest l' := by
  unfold latest
  simp only [h.mem_iff]
  exact h.filter _

lemma lowestView_perm {l' : List (Int × ViewChangeReq)} (h : l ~ l') : lowestView l = lowestView l' :=
  (h.map _).foldl_eq _

lemma lowestHeight_perm {l' : List (Int × ViewChangeReq)} (h : l ~ l') : lowestHeight l = lowestHeight l' :=
  (h.map _).foldl_eq _

lemma minima_le_lowest {toView highest : Int} (hmem : ∀ p ∈ l, p ∈ c.eligible toView highest)
    (hfirst : ∀ p ∈ l, ∀ before after, c.eligible toView highest = before ++ p :: after →
      ∀ q ∈ before, q.2.idx = p.2.idx → q.1 < p.1) :
    (walk highest (c.eligible toView highest)).minView ≤ lowestView l ∧
      (walk highest (c.eligible toView highest)).minHeight ≤ lowestHeight l := by
  have hheight : ∀ p ∈ c.eligible toView highest, highest ≤ p.2.height := fun _ hp => (of_mem_eligible hp).2.2
  have hmet := met_walk hheight
  have hcounts : ∀ p ∈ l, (walk highest (c.eligible toView highest)).minView ≤ p.1 ∧
      (walk highest (c.eligible toView highest)).minHeight ≤ p.2.height := by
    intro p hp
    obtain ⟨before, after, hl⟩ := append_of_mem (hmem p hp)
    exact minima_walk_le hheight hl (hfirst p hp before after hl)
  exact ⟨le_lowestView.mpr ⟨hmet.minView.2, fun p hp => (hcounts p hp).1⟩,
    le_lowestHeight.mpr ⟨hmet.minHeight.2, fun p hp => (hcounts p hp).2⟩⟩

/-- In every order the requests that are not superseded count. -/
lemma minima_le_latest (toView highest : Int) (h : KeyedVotes c.recvViewChangeReq) :
    let w := walk highest (c.eligible toView highest)
    w.minView ≤ lowestView (latest (c.eligible toView highest)) ∧
      w.minHeight ≤ lowestHeight (latest (c.eligible toView highest)) := by
  refine minima_le_lowest (fun p hp => (mem_filter.mp hp).1) fun p hp before after hl q hq hidx => lt_of_le_of_ne ?_ ?_
  · exact of_decide_eq_true (mem_filter.mp hp).2 q (hl ▸ mem_append_left _ hq) hidx
  · have hne := pairwise_eligible toView highest h h.views
    rw [hl, pairwise_append] at hne
    exact hne.2.2 q hq p mem_cons_self hidx

/-- With the smallest views first every request counts. -/
lemma minima_of_increasing (toView highest : Int) (h : KeyedVotes c.recvViewChangeReq)
    (horder : c.recvViewChangeReq.Pairwise fun p q => p.1 < q.1) :
    let w := walk highest (c.eligible toView highest)
    w.minView = lowestView (c.eligible toView highest) ∧ w.minHeight = lowestHeight (c.eligible toView highest) := by
  have hmet := met_walk fun p (hp : p ∈ c.eligible toView highest) => (of_mem_eligible hp).2.2
  have hle := minima_le_lowest (fun p hp => hp) fun p _ before after hl q hq => by
    have hlt := pairwise_eligible toView highest h horder
    rw [hl, pairwise_append] at hlt
    exact hlt.2.2 q hq p mem_cons_self
  exact ⟨le_antisymm hle.1 hmet.minView.1, le_antisymm hle.2 hmet.minHeight.1⟩

lemma canTriggerViewChange_eq {highest : BlockHeader} {maxInvalidNodeNum : Nat} {consensusBlockNumber : Int} :
    let l := c.eligible toView highest.number
    let w := walk highest.number l
    c.canTriggerViewChange maxInvalidNodeNum toView highest consensusBlockNumber =
      (decide (maxInvalidNodeNum < (sealersOf l).card % (MAXIDX + 1)) &&
        !(w.minHeight == consensusBlockNumber && w.minHeight == c.committedPrepareCache.height), w.minView) := by
  dsimp only
  rw [canTriggerViewChange, foldl_visit_eligible, ← (met_walk fun _ hp => (of_mem_eligible hp).2.2).length_idxViewMap]
  rfl

/-- In every order the result is that of the number of sealers and of the latest request of each, whatever block the node
works on. -/
def OrderIndependent (c : PBFTReqCache) (toView : Int) (highest : BlockHeader) : Prop :=
  ∀ (c' : PBFTReqCache) (maxInvalidNodeNum : Nat) (consensusBlockNumber : Int),
    Reordered c.recvViewChangeReq c'.recvViewChangeReq →
      let l := c.eligible toView highest.number
      c'.canTriggerViewChange maxInvalidNodeNum toView highest consensusBlockNumber =
        (decide (maxInvalidNodeNum < (sealersOf l).card % (MAXIDX + 1)) &&
            !(lowestHeight (latest l) == consensusBlockNumber && lowestHeight (latest l) == c'.committedPrepareCache.height),
          lowestView (latest l))

/-- The order does not matter exactly when the superseded requests are not the only ones with the smallest view or the
smallest height. -/
theorem orderIndependent_iff (c : PBFTReqCache) (toView : Int) (highest : BlockHeader)
    (h : KeyedVotes c.recvViewChangeReq) :
    let l := c.eligible toView highest.number
    OrderIndependent c toView highest ↔ lowestView (latest l) = lowestView l ∧
      ((sealersOf l).card % (MAXIDX + 1) = 0 ∨ lowestHeight (latest l) = lowestHeight l) := by
  intro l
  constructor
  · intro hall
    -- the node has committed to, and works on, the smallest height, and meets the smallest views first
    let c₁ : PBFTReqCache :=
      { c with
        recvViewChangeReq := c.recvViewChangeReq.insertionSort fun p q => p.1 ≤ q.1
        committedPrepareCache := { c.committedPrepareCache with height := lowestHeight l } }
    have hperm := perm_insertionSort (fun p q : Int × List ViewChangeReq => p.1 ≤ q.1) c.recvViewChangeReq
    have horder : Reordered c.recvViewChangeReq c₁.recvViewChangeReq :=
      ⟨_, hperm.symm, forall₂_same.mpr fun _ _ => ⟨rfl, .rfl⟩⟩
    have hkeyed := horder.keyed h
    have hsorted : c₁.recvViewChangeReq.Pairwise fun p q => p.1 < q.1 := by
      have hle := pairwise_insertionSort (fun p q : Int × List ViewChangeReq => p.1 ≤ q.1) c.recvViewChangeReq
      exact hle.imp₂ (fun _ _ hpq hne => lt_of_le_of_ne hpq hne) hkeyed.views
    obtain ⟨hview, hheight⟩ := minima_of_increasing toView highest.number hkeyed hsorted
    have hl : l ~ c₁.eligible toView highest.number := horder.eligible
    have hresult := hall c₁ 0 (lowestHeight l) horder
    dsimp only at hresult
    rw [canTriggerViewChange_eq, hview, hheight, ← lowestView_perm hl, ← lowestHeight_perm hl] at hresult
    obtain ⟨hbool, hviews⟩ := Prod.mk.inj hresult
    refine ⟨hviews.symm, ?_⟩
    simp only [c₁, beq_self_eq_true, Bool.and_self, Bool.not_true, Bool.and_false] at hbool
    rcases Bool.and_eq_false_iff.mp hbool.symm with hzero | heq
    · exact .inl (by simpa using hzero)
    · exact .inr (by simpa using heq)
  · rintro ⟨hview, hheight⟩ c' maxInvalidNodeNum consensusBlockNumber horder
    have hl : l ~ c'.eligible toView highest.number := horder.eligible
    obtain ⟨hviewle, hheightle⟩ := minima_le_latest toView highest.number (horder.keyed h)
    have hmet : (walk highest.number (c'.eligible toView highest.number)).Met _ :=
      met_walk fun _ hp => (of_mem_eligible hp).2.2
    have hviews := hmet.minView.1
    have hheights := hmet.minHeight.1
    rw [← lowestView_perm (latest_perm hl), hview] at hviewle
    rw [← lowestHeight_perm (latest_perm hl)] at hheightle
    rw [← lowestView_perm hl] at hviews
    rw [← lowestHeight_perm hl] at hheights
    have hsealers : sealersOf (c'.eligible toView highest.number) = sealersOf l := toFinset_eq_of_perm _ _ (hl.map _).symm
    rw [canTriggerViewChange_eq, hsealers, le_antisymm hviewle hviews]
    refine Prod.ext ?_ hview.symm
    rcases hheight with hzero | hheight
    · simp [l, hzero]
    · rw [le_antisymm (hheightle.trans hheight.le) hheights, ← hheight]

def requestOf (idx : Nat) (view : Int) : Int × List ViewChangeReq :=
  (view, [{ height := 1, view, idx }])

/-- The request of sealer 0 for view 5 is superseded, but sealer 1 asks for a smaller view. -/
theorem orderIndependent_of_smaller_view :
    OrderIndependent { recvViewChangeReq := [requestOf 0 5, requestOf 0 7, requestOf 1 4] } 3 { number := 1 } ∧
      canTriggerViewChange { recvViewChangeReq := [requestOf 0 7, requestOf 1 4, requestOf 0 5] } 1 3 { number := 1 } 1 =
        (true, 4) := by
  have hindep := (orderIndependent_iff { recvViewChangeReq := [requestOf 0 5, requestOf 0 7, requestOf 1 4] } 3
    { number := 1 } ⟨by decide, by decide⟩).mpr (by decide)
  exact ⟨hindep, by decide⟩

/-- The sealer has replaced its request for view 5, which counts all the same when it is met first. -/
theorem not_orderIndependent_of_superseded :
    canTriggerViewChange { recvViewChangeReq := [requestOf 0 7, requestOf 0 5] } 0 4 { number := 1 } 1 = (true, 7) ∧
      canTriggerViewChange { recvViewChangeReq := [requestOf 0 5, requestOf 0 7] } 0 4 { number := 1 } 1 = (true, 5) ∧
      ¬OrderIndependent { recvViewChangeReq := [requestOf 0 5, requestOf 0 7] } 4 { number := 1 } := by
  refine ⟨by decide, by decide, fun h => ?_⟩
  have hfive := h { recvViewChangeReq := [requestOf 0 5, requestOf 0 7] } 0 1 ⟨_, .rfl, forall₂_same.mpr fun _ _ => ⟨rfl, .rfl⟩⟩
  exact absurd hfive (by decide)

end PBFTReqCache

namespace PBFTEngine

structure Electorate (s : PBFTEngine) : Prop where
  size : s.sealerList.length ≤ MAXIDX
  nodeNum : s.nodeNum = s.sealerList.length
  f : s.f = (s.nodeNum - 1) / 3
  idx : s.idx = ownIdx s.keyPair s.sealerList

/-- The change of the view noted as `t` on top of `log` was asked for by the node itself and by a quorum of other
sealers. -/
structure ViewQuorum (E : Env) (log : List Action) (t : ViewTally) : Prop where
  asked : ∃ r, .sendViewChangeReq r none ∈ log ∧ r.view = t.view ∧ r.height = t.highestBlock.number ∧ r.idx = t.idx
  distinct : (t.votes.map PBFTMsg.idx).Nodup
  count : t.minValidNodes - 1 ≤ t.votes.length
  votes : ∀ r ∈ t.votes, r.view = t.view ∧ t.highestBlock.number ≤ r.height ∧ r.idx ≠ t.idx ∧
    checkSign E t.sealers r = true

structure ViewState (E : Env) (s : PBFTEngine) : Prop where
  sealers : Electorate s
  le : s.view ≤ s.toView
  bounded : s.toView < MAXVIEW
  valid : ∀ r, s.reqCache.Live r → checkSign E s.sealerList r = true ∧ r.idx ≠ s.idx ∧ r.height = s.highestBlock.number
  wanted : 0 < s.toView → (∃ r, .sendViewChangeReq r none ∈ s.log ∧ r.view = s.toView ∧
      r.height = s.highestBlock.number ∧ r.idx = s.idx) ∨
    ∃ idxs : Finset Nat, s.f < idxs.card ∧ ∀ i ∈ idxs, ∃ r, s.reqCache.Live r ∧ r.idx = i ∧ s.toView < r.view
  changes : ∀ t l, .changeView t :: l <:+ s.log → 0 < t.view → ViewQuorum E l t

/-- The conditions on a step: `catchupView` forgets no live request; view-change requests are handled when the newest
block of the chain has been reported; the view wanted stays below its bound; the sealer list fits the index type and
changes only with a new block. -/
structure ViewSafe (s : PBFTEngine) (e : Event × Ambient) : Prop where
  catchup : VoteSafe s e
  current : ∀ p, e.1 = .handleMsg p → p.packetId = .ViewChangeReqPacket → s.blockChain.number = s.highestBlock.number
  bounded : e.1 = .checkTimeout → s.toView + 1 < MAXVIEW
  nonempty : e.2.sealerList ≠ []
  size : e.2.sealerList.length ≤ MAXIDX
  refreshed : ∀ b, e.1 = .checkBlock b → e.2.sealerList.insertionSort (· ≤ ·) = s.sealerList
  repeated : ∀ n, e.1 = .reportBlock n → n ≤ s.highestBlock.number → e.2.sealerList.insertionSort (· ≤ ·) = s.sealerList

def Progress (a b : PBFTEngine) : Prop :=
  toLex (a.consensusBlockNumber, a.view) ≤ toLex (b.consensusBlockNumber, b.view)

variable {E : Env} {amb : Ambient} {s₀ a b : PBFTEngine} {e : Event}

lemma Electorate.of_configured {sealers : List NodeID} {limit : Nat} (h : Configured sealers limit b)
    (hsize : sealers.length ≤ MAXIDX) : Electorate b := by
  have hlist := h.sealerList
  refine ⟨by rw [hlist]; exact hsize, ?_, h.f, by rw [hlist]; exact h.idx⟩
  rw [h.nodeNum, hlist]
  exact Nat.mod_eq_of_lt (Nat.lt_succ_of_le hsize)

lemma Electorate.congr (h : Electorate a) (hkey : b.keyPair = a.keyPair) (hlist : b.sealerList = a.sealerList)
    (hnum : b.nodeNum = a.nodeNum) (hf : b.f = a.f) (hidx : b.idx = a.idx) : Electorate b :=
  ⟨by rw [hlist]; exact h.size, by rw [hnum, hlist]; exact h.nodeNum, by rw [hf, hnum]; exact h.f,
    by rw [hidx, hkey, hlist]; exact h.idx⟩

lemma Electorate.eq (ha : Electorate a) (hb : Electorate b) (hkey : b.keyPair = a.keyPair)
    (hlist : b.sealerList = a.sealerList) : b.nodeNum = a.nodeNum ∧ b.f = a.f ∧ b.idx = a.idx := by
  have hnum : b.nodeNum = a.nodeNum := by rw [hb.nodeNum, ha.nodeNum, hlist]
  exact ⟨hnum, by rw [hb.f, ha.f, hnum], by rw [hb.idx, ha.idx, hkey, hlist]⟩

lemma Electorate.idx_lt (h : Electorate a) (hidx : a.idx ≠ MAXIDX) : a.idx < a.sealerList.length := by
  have hown := h.idx
  unfold ownIdx at hown
  split at hown
  · rename_i hmem
    rw [hown]
    exact (Nat.mod_le _ _).trans_lt (idxOf_lt_length_iff.mpr hmem)
  · exact absurd hown hidx

lemma ViewState.congr (ha : ViewState E a) (h : SameViews a b)
    (hlive : ∀ r, b.reqCache.Live r ↔ a.reqCache.Live r) : ViewState E b := by
  obtain ⟨l, hl, hno⟩ := h.log
  refine ⟨ha.sealers.congr h.keyPair h.sealerList h.nodeNum h.f h.idx, ?_, ?_, fun r hr => ?_,
    fun hpos => ?_, fun t l' hsuffix => ?_⟩
  · rw [h.view, h.toView]
    exact ha.le
  · rw [h.toView]
    exact ha.bounded
  · rw [h.sealerList, h.idx, h.highestBlock]
    exact ha.valid r ((hlive r).mp hr)
  · rw [h.toView] at hpos
    rw [h.toView, h.highestBlock, h.idx, h.f, hl]
    refine (ha.wanted hpos).imp ?_ ?_
    · rintro ⟨r, hr, hrest⟩
      exact ⟨r, mem_append_right _ hr, hrest⟩
    rintro ⟨idxs, hcard, hvotes⟩
    refine ⟨idxs, hcard, fun i hi => ?_⟩
    obtain ⟨r, hr, hrest⟩ := hvotes i hi
    exact ⟨r, (hlive r).mpr hr, hrest⟩
  · rw [hl] at hsuffix
    exact ha.changes t l' (suffix_of_not_mem hsuffix (hno t))

section

variable (ha : ViewState E a) (hvotes : a.reqCache.LiveVotes)

include ha hvotes

section

variable (hcount : a.minValidNodes - 1 ≤ a.reqCache.getViewChangeSize a.toView % (MAXIDX + 1)) (hidx : a.idx ≠ MAXIDX)

include hcount hidx

lemma ViewState.asked (hpos : 0 < a.toView) :
    ∃ r, .sendViewChangeReq r none ∈ a.log ∧ r.view = a.toView ∧ r.height = a.highestBlock.number ∧ r.idx = a.idx := by
  rcases ha.wanted hpos with hasked | ⟨idxs, hcard, hbeyond⟩
  · exact hasked
  exfalso
  let asking : Finset Nat := ((a.reqCache.viewBucket a.toView).map PBFTMsg.idx).toFinset
  have hplace : ∀ r, a.reqCache.Live r → r.idx ∈ (Finset.range a.sealerList.length).erase a.idx := by
    intro r hr
    obtain ⟨hsign, hne, -⟩ := ha.valid r hr
    rw [Finset.mem_erase, Finset.mem_range]
    exact ⟨hne, lt_length_of_checkSign hsign⟩
  have hasking : asking.card = a.reqCache.getViewChangeSize a.toView := by
    rw [toFinset_card_of_nodup (hvotes.nodup_viewBucket a.toView), length_map]
    rfl
  have hdisjoint : Disjoint asking idxs := by
    rw [Finset.disjoint_left]
    intro i hi hi'
    obtain ⟨r, hr, rfl⟩ := mem_map.mp (mem_toFinset.mp hi)
    obtain ⟨r', hr', hidx', hlt⟩ := hbeyond _ hi'
    obtain ⟨hlive, hview⟩ := hvotes.mem_viewBucket.mp hr
    obtain rfl := hvotes.eq_of_idx hr' hlive hidx'
    omega
  have hsub : asking ∪ idxs ⊆ (Finset.range a.sealerList.length).erase a.idx := by
    apply Finset.union_subset
    · intro i hi
      obtain ⟨r, hr, rfl⟩ := mem_map.mp (mem_toFinset.mp hi)
      exact hplace r (hvotes.mem_viewBucket.mp hr).1
    · intro i hi
      obtain ⟨r, hr, rfl, -⟩ := hbeyond i hi
      exact hplace r hr
  have hle := Finset.card_le_card hsub
  have hlt := ha.sealers.idx_lt hidx
  rw [Finset.card_union_of_disjoint hdisjoint, Finset.card_erase_of_mem (Finset.mem_range.mpr hlt),
    Finset.card_range, hasking] at hle
  have hmod := Nat.mod_le (a.reqCache.getViewChangeSize a.toView) (MAXIDX + 1)
  have hmin : a.minValidNodes = a.sealerList.length - a.f := by
    unfold minValidNodes
    rw [ha.sealers.nodeNum]
  omega

lemma ViewState.changeView : ViewState E ({ a with
        view := a.toView, reqCache := a.reqCache.triggerViewChange a.toView a.blockChain.number }.note
        (.changeView a.viewTally)) := by
  have hlive := (prunes_triggerViewChange hvotes a.toView a.blockChain.number).live
  have hasked := ha.asked hvotes hcount hidx
  refine ⟨ha.sealers.congr rfl rfl rfl rfl rfl, le_rfl, ha.bounded,
    fun r hr => ha.valid r ((hlive r).mp hr).1, fun hpos => ?_, fun t l hsuffix hpos => ?_⟩
  · obtain ⟨r, hr, hrest⟩ := hasked hpos
    exact .inl ⟨r, mem_cons_of_mem _ hr, hrest⟩
  · rcases suffix_cons_iff.mp hsuffix with heq | hold
    · obtain ⟨ht, rfl⟩ := cons.inj heq
      obtain rfl := Action.changeView.inj ht
      refine ⟨hasked hpos, hvotes.nodup_viewBucket a.toView, hcount.trans (Nat.mod_le _ _), fun r hr => ?_⟩
      obtain ⟨hr', hview⟩ := hvotes.mem_viewBucket.mp hr
      obtain ⟨hsign, hne, hheight⟩ := ha.valid r hr'
      exact ⟨hview, hheight.ge, hne, hsign⟩
    · exact ha.changes t l hold hpos

end

lemma ViewState.vote {req : ViewChangeReq} (hvalid : ValidViewChange E a req)
    (hcurrent : a.blockChain.number = a.highestBlock.number) : ViewState E { a with reqCache := a.reqCache.addViewChangeReq req a.blockChain.number } := by
  rcases addViewChangeReq_spec hvotes req a.blockChain.number with
    hsame | ⟨-, -, hlive, hrises⟩
  · rw [hsame]
    exact ha.congr ⟨rfl, rfl, rfl, rfl, rfl, rfl, rfl, rfl, [], rfl, by simp⟩ fun r => Iff.rfl
  · refine ⟨ha.sealers.congr rfl rfl rfl rfl rfl, ha.le, ha.bounded, fun r hr => ?_, fun hpos => ?_, ha.changes⟩
    · rcases (hlive r).mp hr with rfl | ⟨hold, -⟩
      · refine ⟨hvalid.sign, hvalid.idx, ?_⟩
        obtain ⟨bl, hbl⟩ := ne_none_iff_exists'.mp hvalid.known
        have hle := (BlockChain.number_of_getBlockByNumber hbl).2
        have hge := hvalid.height
        change r.height = a.highestBlock.number
        omega
      · exact ha.valid r hold
    · refine (ha.wanted hpos).imp_right ?_
      rintro ⟨idxs, hcard, hbeyond⟩
      refine ⟨idxs, hcard, fun i hi => ?_⟩
      obtain ⟨r, hr, hidx, hlt⟩ := hbeyond i hi
      by_cases hown : r.idx = req.idx
      · -- the sealer's request is replaced by one for no lower view
        have hheight := (ha.valid r hr).2.2
        have hrise : r.view ≤ req.view := by
          rcases hrises r hr hown with hexpired | hle
          · omega
          · exact hle
        exact ⟨req, (hlive req).mpr (.inl rfl), hown.symm.trans hidx, hlt.trans_le hrise⟩
      · exact ⟨r, (hlive r).mpr (.inr ⟨hr, hown⟩), hidx, hlt⟩

end

lemma ViewState.move (ha : ViewState E a) (hcache : VoteCache E a) (hsafe : ViewSafe s₀ (e, amb))
    {tv : Int} {rv : List (Int × List ViewChangeReq)} {lv : List ViewChangeReq}
    (hmove : ViewMove E amb s₀ e a tv rv lv) : ViewState E (a.withViewChanges tv rv lv) := by
  have hlive : ∀ r, (a.withViewChanges tv rv lv).reqCache.Live r ↔ a.reqCache.Live r := by
    intro r
    rw [(hmove.prunes hcache hsafe.catchup).live, and_true]
  have hvalid : ∀ r, (a.withViewChanges tv rv lv).reqCache.Live r → checkSign E a.sealerList r = true ∧
      r.idx ≠ a.idx ∧ r.height = a.highestBlock.number := fun r hr => ha.valid r ((hlive r).mp hr)
  have hsealers : Electorate (a.withViewChanges tv rv lv) := ha.sealers.congr rfl rfl rfl rfl rfl
  cases hmove with
  | timeout he hsent htoView =>
    have hbound := hsafe.bounded he
    rw [← htoView] at hbound
    obtain ⟨l, hl⟩ := hsent
    refine ⟨hsealers, ?_, hbound, hvalid, fun _ => .inl
      ⟨{ a with toView := a.toView + 1 }.viewChangeReq E amb, ?_, rfl, rfl, rfl⟩, ha.changes⟩
    · have hle := ha.le
      change a.view ≤ a.toView + 1
      omega
    · change _ ∈ a.log
      rw [hl]
      exact mem_cons_self
  | fast v htrigger =>
    obtain ⟨habove, hmax, idxs, hcard, hbeyond⟩ :=
      canTriggerViewChange_spec hcache.votes ha.bounded htrigger
    refine ⟨hsealers, ?_, ?_, hvalid, fun _ => .inr ⟨idxs, hcard, fun i hi => ?_⟩, ha.changes⟩
    · have hle := ha.le
      change a.view ≤ v - 1
      omega
    · change v - 1 < MAXVIEW
      omega
    · obtain ⟨r, hr, hidx, hle⟩ := hbeyond i hi
      refine ⟨r, (hlive r).mpr hr, hidx, ?_⟩
      change v - 1 < r.view
      omega
  | _ => exact ha.congr ⟨rfl, rfl, rfl, rfl, rfl, rfl, rfl, rfl, [], rfl, by simp⟩ hlive

lemma resetConfig_sameViews (ha : Electorate a) (hne : amb.sealerList ≠ []) (hsize : amb.sealerList.length ≤ MAXIDX)
    (hsame : amb.sealerList.insertionSort (· ≤ ·) = a.sealerList) : SameViews a (a.resetConfig amb) := by
  obtain ⟨_, hr, hconf⟩ := resetConfig_cases amb a
  have hc := hconf hne
  have hsealers : Electorate (a.resetConfig amb) :=
    Electorate.of_configured hc (by rw [length_insertionSort]; exact hsize)
  have hkey : (a.resetConfig amb).keyPair = a.keyPair := by rw [hr]
  have hlist : (a.resetConfig amb).sealerList = a.sealerList := hc.sealerList.trans hsame
  obtain ⟨hnum, hf, hidx⟩ := ha.eq hsealers hkey hlist
  refine ⟨hkey, hlist, hnum, hf, hidx, ?_, ?_, ?_, [], ?_, by simp⟩ <;> rw [hr]
  rfl

lemma ViewState.report (ha : ViewState E a) (hcache : VoteCache E a) (hsafe : ViewSafe a (e, amb))
    {bl : Block} (hb : a.blockChain.getBlockByNumber bl.header.number = some bl)
    (he : e = .reportBlock bl.header.number) (hr : a.reportBlockWithoutLock E amb bl = b) : ViewState E b := by
  have hlog : b.log = .reportBlock bl.header.number :: a.log :=
    hr ▸ reportBlockWithoutLock_rec (P := fun s => s.log = _ :: a.log) rfl (fun _ => rfl) fun _ => rfl
  have hkey : b.keyPair = a.keyPair :=
    hr ▸ reportBlockWithoutLock_rec (P := fun s => s.keyPair = a.keyPair) rfl (fun _ => rfl) fun _ => rfl
  -- the configuration is left alone, or it is the one the tables now hold
  obtain ⟨hsealers, hlist⟩ : Electorate b ∧ (b.sealerList = a.sealerList ∨
      b.sealerList = amb.sealerList.insertionSort (· ≤ ·)) := by
    rw [← hr]
    rcases reportBlockWithoutLock_cases with ⟨hr, -⟩ | ⟨_, hconf, -⟩
    · rw [hr]
      exact ⟨ha.sealers.congr rfl rfl rfl rfl rfl, .inl rfl⟩
    · have hc := hconf hsafe.nonempty
      exact ⟨.of_configured hc (by rw [length_insertionSort]; exact hsafe.size), .inr hc.sealerList⟩
  rcases reportBlockWithoutLock_viewCases hcache.heights hcache.highest hb hr with
    ⟨hhighest, hview, htoView, hle, hrecv, -⟩ | ⟨hlt, hhighest, hview, htoView, hrecv, -⟩
  · have hsame := hlist.elim id fun hnew => hnew.trans (hsafe.repeated _ he hle)
    obtain ⟨hnum, hf, hidx⟩ := ha.sealers.eq hsealers hkey hsame
    refine ha.congr ⟨hkey, hsame, hnum, hf, hidx, hview, htoView, hhighest, [_], hlog, by simp⟩ fun r => ?_
    unfold Live
    rw [hrecv]
  · have hnone : ∀ r, ¬b.reqCache.Live r := by
      intro r hr
      have hdel : (a.reqCache.delInvalidViewChange E bl.header).Live r := by
        unfold Live at hr ⊢
        rw [hrecv] at hr
        exact hr
      obtain ⟨hold, hstale⟩ := ((prunes_delInvalidViewChange E a.reqCache bl.header).live r).mp hdel
      have hheight := (ha.valid r hold).2.2
      unfold isStale at hstale
      simp only [Bool.or_eq_false_iff, decide_eq_false_iff_not] at hstale
      omega
    refine ⟨hsealers, by rw [hview, htoView], by rw [htoView]; decide, fun r hr => absurd hr (hnone r),
      fun hpos => by rw [htoView] at hpos; omega, fun t l hsuffix => ?_⟩
    have hnew : .changeView t :: l <:+ [.reportBlock bl.header.number] ++ a.log := by
      rw [hlog] at hsuffix
      exact hsuffix
    exact ha.changes t l (suffix_of_not_mem hnew (by simp))

lemma viewState_smallStep (hsafe : ViewSafe s₀ (e, amb)) (h : SmallStep E amb s₀ e a b)
    (hcache : VoteCache E a) (ha : ViewState E a) : ViewState E b := by
  cases h.viewStep with
  | move b tv rv lv hmove hframe =>
    refine (ha.move hcache hsafe hmove).congr hframe.toSameViews fun r => ?_
    unfold Live
    rw [hframe.recvViewChangeReq]
  | vote p req he hkind hdecode hvalid hchain =>
    refine ha.vote hcache.votes hvalid ?_
    rw [hchain.1, hchain.2]
    exact hsafe.current p he hkind
  | change hcount hidx => exact ha.changeView hcache.votes hcount hidx
  | report bl hb hs he =>
    subst hs
    exact ha.report hcache hsafe hb he rfl
  | reset hs he =>
    subst hs
    obtain ⟨bl, hbl⟩ := he
    refine ha.congr (resetConfig_sameViews ha.sealers hsafe.nonempty hsafe.size (hsafe.refreshed bl hbl)) fun r => ?_
    obtain ⟨_, hr, -⟩ := resetConfig_cases amb a
    rw [hr]
  | garbage =>
    refine ha.congr ⟨rfl, rfl, rfl, rfl, rfl, rfl, rfl, rfl, [], rfl, by simp⟩ fun r => ?_
    rw [(prunes_collectGarbage E a.reqCache a.highestBlock).live]
    exact ⟨fun hr => hr.1, fun hr => ⟨hr, hcache.fresh r hr⟩⟩

lemma progress_of_eq (hcons : b.consensusBlockNumber = a.consensusBlockNumber)
    (hview : a.view ≤ b.view) : Progress a b :=
  Lex.toLex_le_toLex.mpr (.inr ⟨hcons.symm, hview⟩)

lemma progress_smallStep (h : SmallStep E amb s₀ e a b) (hcache : VoteCache E a) (ha : ViewState E a) : Progress a b := by
  have hb := heights_smallStep h hcache.heights
  have hconsa := hcache.heights.consensus
  have hconsb := hb.consensus
  cases h.viewStep with
  | move b tv rv lv hmove hframe =>
    exact progress_of_eq hframe.consensusBlockNumber hframe.view.ge
  | change => exact progress_of_eq rfl ha.le
  | report bl hbl =>
    rcases reportBlockWithoutLock_viewCases hcache.heights hcache.highest hbl rfl with
      ⟨hhighest, hview, -⟩ | ⟨hlt, hhighest, -⟩
    · rw [hhighest] at hconsb
      exact progress_of_eq (hconsb.trans hconsa.symm) hview.ge
    · rw [hhighest] at hconsb
      refine Lex.toLex_le_toLex.mpr (.inl ?_)
      change a.consensusBlockNumber < (a.reportBlockWithoutLock E amb bl).consensusBlockNumber
      omega
  | reset => exact resetConfig_rec fun _ => progress_of_eq rfl (le_rfl)
  | _ => exact progress_of_eq rfl (le_rfl)

lemma viewState_start (hne : amb.sealerList ≠ []) (hsize : amb.sealerList.length ≤ MAXIDX) {cfg : NodeConfig}
    {backup : Option WireMsg} : ViewState E (start E amb cfg backup) := by
  have hfresh := fresh_start E amb cfg backup
  obtain ⟨_, h, hconf⟩ := start_cases E amb cfg backup
  have hview : (start E amb cfg backup).view = 0 ∧ (start E amb cfg backup).toView = 0 := by
    rw [h]
    exact ⟨rfl, rfl⟩
  refine ⟨Electorate.of_configured (hconf hne) (by rw [length_insertionSort]; exact hsize),
    by rw [hview.1, hview.2], by rw [hview.2]; decide, ?_, fun hpos => ?_, fun t l hsuffix => ?_⟩
  · rintro r ⟨q, hq, -⟩
    rw [hfresh.recvViewChangeReq] at hq
    cases hq
  · rw [hview.2] at hpos
    omega
  · rw [start_log] at hsuffix
    have hmem := hsuffix.subset mem_cons_self
    simp at hmem

lemma viewState_step {e : Event × Ambient} (hsafe : ViewSafe s e) (hs : VoteCache E s ∧ ViewState E s) :
    (VoteCache E (step E s e) ∧ ViewState E (step E s e)) ∧ Progress s (step E s e) := by
  refine invariant_step (fun t => (VoteCache E t ∧ ViewState E t) ∧ Progress s t) ?_ ⟨hs, le_rfl⟩
  rintro a b hab ⟨⟨hcache, hstate⟩, hprogress⟩
  exact ⟨⟨voteCache_smallStep hsafe.catchup hab hcache, viewState_smallStep hsafe hab hcache hstate⟩,
    hprogress.trans (progress_smallStep hab hcache hstate)⟩

/-- The state of the view change over a run that keeps to `ViewSafe`: the view wanted is never behind the view, the
height under consensus is the one after the highest block, no step takes the height and view back, and every change to a
view above 0 was asked for by the node and by a quorum of others. -/
theorem viewChange_of_viewSafe (E : Env) (amb : Ambient) (cfg : NodeConfig) (backup : Option WireMsg)
    (hne : amb.sealerList ≠ []) (hsize : amb.sealerList.length ≤ MAXIDX)
    (es : List (Event × Ambient))
    (h : Along (step E) ViewSafe (start E amb cfg backup) es) :
    let s := run (step E) (start E amb cfg backup) es
    s.view ≤ s.toView ∧ s.consensusBlockNumber = s.highestBlock.number + 1 ∧
      Along (step E) (fun s e => Progress s (step E s e)) (start E amb cfg backup) es ∧
      ∀ t l, .changeView t :: l <:+ s.log → 0 < t.view → ViewQuorum E l t := by
  have hstart : VoteCache E (start E amb cfg backup) ∧ ViewState E (start E amb cfg backup) :=
    ⟨voteCache_start, viewState_start hne hsize⟩
  obtain ⟨hcache, hstate⟩ := invariant_run (fun s => VoteCache E s ∧ ViewState E s)
    (fun s e hsafe hs => (viewState_step hsafe hs).1) hstart h
  have hprogress := Along.of_invariant (fun s => VoteCache E s ∧ ViewState E s)
    (fun s e hsafe hs => (viewState_step hsafe hs).1)
    (fun s e hsafe hs => (viewState_step hsafe hs).2) hstart h
  exact ⟨hstate.le, hcache.heights.consensus, hprogress, hstate.changes⟩

end PBFTEngine

namespace Symbolic

open PBFTEngine

def changedView : Action → Option Int
  | .changeView t => some t.view
  | _ => none

def askedView : Action → Option Int
  | .sendViewChangeReq r none => some r.view
  | _ => none

lemma not_viewQuorum {log : List Action} (hlast : log.head?.bind changedView = some 9)
    (hnever : ∀ x ∈ log.tail, askedView x ≠ some 9) :
    ∃ t l, .changeView t :: l <:+ log ∧ 0 < t.view ∧ ¬ViewQuorum env l t := by
  cases log with
  | nil => cases hlast
  | cons x l =>
    cases x with
    | changeView t =>
      have hview : t.view = 9 := some_inj.mp hlast
      refine ⟨t, l, suffix_rfl, by rw [hview]; decide, fun hq => ?_⟩
      obtain ⟨r, hr, hasked, -⟩ := hq.asked
      apply hnever _ hr
      rw [← hview, ← hasked]
      rfl
    | _ => cases hlast

/-- The node wants view 3 when a sealer that had asked for view 10 lags behind and is forgotten in one of the two maps.
Counted twice, it takes the node to view 9, for which the node never asked. -/
theorem not_viewQuorum_of_catchup : ∃ t l, .changeView t :: l <:+ (run (step env) (node 12)
          [timeout (10 ^ 4), timeout (10 ^ 5), timeout (10 ^ 6), viewChange 0 10, viewChange 0 1,
            viewChange 2 10, viewChange 0 9, viewChange 3 9]).log ∧
      0 < t.view ∧ ¬ViewQuorum env l t :=
  not_viewQuorum (by decide +kernel) (by decide +kernel)

lemma viewSafe_timeout {now : Nat} (h : s.toView + 1 < MAXVIEW) : ViewSafe s (timeout now) where
  catchup := voteSafe_timeout
  current := by
    intro p he
    cases he
  bounded := fun _ => h
  nonempty := cons_ne_nil _ _
  size := (by decide : sealers.length ≤ MAXIDX)
  refreshed := by
    intro b he
    cases he
  repeated := by
    intro n he
    cases he

lemma viewSafe_viewChange {idx : Nat} (hahead : s.toView ≤ view + 1)
    (hcurrent : s.blockChain.number = s.highestBlock.number) : ViewSafe s (viewChange idx view) where
  catchup := by
    intro p req he hcatch
    have hlt := CatchesUp.of_viewChange he hcatch
    omega
  current := fun _ _ _ => hcurrent
  bounded := by
    intro he
    cases he
  nonempty := cons_ne_nil _ _
  size := (by decide : sealers.length ≤ MAXIDX)
  refreshed := by
    intro b he
    cases he
  repeated := by
    intro n he
    cases he

theorem viewChange_of_viewSafe_node : (run (step env) (node 12)
        [timeout (10 ^ 4), viewChange 0 1, viewChange 2 1]).view = 1 ∧
      ∀ t l, .changeView t :: l <:+ (run (step env) (node 12)
            [timeout (10 ^ 4), viewChange 0 1, viewChange 2 1]).log →
        0 < t.view → ViewQuorum env l t := by
  refine ⟨by decide +kernel, ?_⟩
  have hrun := viewChange_of_viewSafe env ambient { keyPair := 12, blockChain := chain } none
    (cons_ne_nil _ _) (by decide) [timeout (10 ^ 4), viewChange 0 1, viewChange 2 1]
    ⟨viewSafe_timeout (by decide +kernel), viewSafe_viewChange (by decide +kernel) (by decide +kernel),
      viewSafe_viewChange (by decide +kernel) (by decide +kernel), trivial⟩
  exact hrun.2.2.2

end Symbolic

end FiscoBcos
