import FiscoBcos.BlockVerifier.Workers

/-!
# Every transaction is executed once, in order

Every transaction that no edge holds back any more is in exactly one place: in the queue, with one thread, or consumed.
-/

namespace FiscoBcos

open Countdown Worker Finset DAG Function ParallelExecution TxAction Prod Machine Option

variable {y : Worker} {topLevel : List Nat}

namespace DAG

variable {d : DAG} {f t : Nat}

lemma outEdges_countDown (t : Nat) : (d.countDown t).outEdges = d.outEdges := by
  funext p
  unfold outEdges countDown
  rw [List.getElem?_modify]
  cases d.vtxs[p]? <;> simp
  split <;> rfl

lemma inDegree_countDown (t x : Nat) :
    (d.countDown t).inDegree x = if x = t then d.inDegree t - 1 else d.inDegree x := by
  unfold inDegree countDown
  rw [List.getElem?_modify]
  by_cases h : x = t
  · subst h
    cases d.vtxs[x]? <;> simp
  · rw [if_neg h]
    cases d.vtxs[x]? <;> simp [Ne.symm h]

lemma inDegree_addEdge (hf : f < d.vtxs.length) (ht : t < d.vtxs.length) (x : Nat) :
    (d.addEdge f t).inDegree x = d.inDegree x + if x = t then 1 else 0 := by
  unfold inDegree addEdge
  rw [if_neg (by omega)]
  simp only [List.getElem?_modify]
  by_cases hx : x = t
  · subst hx
    rw [List.getElem?_eq_getElem ht]
    by_cases hfx : f = x <;> simp [hfx]
  rw [if_neg hx]
  cases d.vtxs[x]? with
  | none => simp
  | some => by_cases hfx : f = x <;> simp [hfx, Ne.symm hx]

def Consistent (d : DAG) : Prop :=
  ∀ t < d.vtxs.length, d.inDegree t = due (range d.vtxs.length) d.outEdges t

lemma consistent_init (n : Nat) : (init n {}).Consistent := by
  intro t ht
  have hout : (init n {}).outEdges = fun _ => [] := by
    funext p
    rw [List.eq_nil_iff_forall_not_mem]
    exact not_edge_init n p
  have hdeg : (init n {}).inDegree t = 0 := by
    simp only [inDegree, init, List.getElem?_replicate]
    split <;> rfl
  rw [hdeg, hout]
  simp [due]

lemma Consistent.addEdge (h : d.Consistent) (hf : f < d.vtxs.length) (ht : t < d.vtxs.length) :
    (d.addEdge f t).Consistent := by
  intro x hx
  have hout : (d.addEdge f t).outEdges = update d.outEdges f (d.outEdges f ++ [t]) := by
    funext a
    rw [outEdges_addEdge hf, update_apply]
  rw [addEdge_length] at hx ⊢
  have hdue : due (range d.vtxs.length) (update d.outEdges f (d.outEdges f ++ [t])) x +
      (d.outEdges f).count x = due (range d.vtxs.length) d.outEdges x +
        (d.outEdges f ++ [t]).count x := due_update (mem_range.mpr hf)
  rw [List.count_append, List.count_singleton] at hdue
  rw [inDegree_addEdge hf ht, h x hx, hout]
  by_cases hxt : x = t
  · simp only [hxt, beq_self_eq_true, if_true] at hdue ⊢
    omega
  · simp only [beq_iff_eq, Ne.symm hxt, hxt, if_false] at hdue ⊢
    omega

section

variable {n : Nat} {edges : List (Nat × Nat)}

lemma consistent_foldl_addEdge (hd : d.Consistent) (hlen : d.vtxs.length = n)
    (hedges : ∀ e ∈ edges, e.1 < e.2 ∧ e.2 < n) :
    let d' := edges.foldl (fun d e => d.addEdge e.1 e.2) d
    d'.Consistent ∧ d'.vtxs.length = n ∧ (∀ p t, d'.Edge p t ↔ d.Edge p t ∨ (p, t) ∈ edges) ∧
      d'.topLevel = d.topLevel ∧ d'.totalVtxs = d.totalVtxs := by
  induction edges generalizing d with
  | nil => simp [hd, hlen]
  | cons e edges ih =>
    obtain ⟨f, t⟩ := e
    obtain ⟨hlt, htn⟩ := hedges (f, t) List.mem_cons_self
    have hf : f < d.vtxs.length := by omega
    have ht : t < d.vtxs.length := by omega
    obtain ⟨hcons, hlen', hedge, htop, htotal⟩ := ih (hd.addEdge hf ht)
      (addEdge_length.trans hlen) fun e he => hedges e (List.mem_cons_of_mem _ he)
    refine ⟨hcons, hlen', fun p x => ?_, ?_, ?_⟩
    · have hadd : ([f].foldl (fun d p => d.addEdge p t) d).Edge p x ↔ d.Edge p x ∨ p ∈ [f] ∧ x = t :=
        edge_foldl_addEdge (by simpa using hf)
      rw [List.foldl_cons, List.foldl_nil, List.mem_singleton] at hadd
      rw [List.foldl_cons, hedge, hadd, List.mem_cons, Prod.mk.injEq]
      tauto
    · rw [List.foldl_cons, htop]
      unfold addEdge
      split <;> rfl
    · rw [List.foldl_cons, htotal]
      unfold addEdge
      split <;> rfl

end

end DAG

def TxAction.isExecute : TxAction → Bool
  | .execute _ => true
  | _ => false

def TxAction.executed : TxAction → Option Nat
  | .execute id => some id
  | _ => none

namespace ParallelExecution

variable {w : Nat} {d₀ : DAG} {s : ParallelExecution w} {rest : Nat → List Nat} {i : Fin w} {x : Worker}

/-- `d₀` is the graph at the start and `rest p` what is left to be counted down of the edges of `p`. -/
structure Counted (d₀ : DAG) (s : ParallelExecution w) (rest : Nat → List Nat) : Prop where
  size : s.dag.vtxs.length = d₀.vtxs.length
  out : s.dag.outEdges = d₀.outEdges
  total : s.totalParaTxs = d₀.vtxs.length
  degree : ∀ t < d₀.vtxs.length, s.dag.inDegree t = due (range d₀.vtxs.length) rest t
  suffix : ∀ p, rest p <:+ d₀.outEdges p
  untouched : ∀ p, .consume p ∉ s.log → rest p = d₀.outEdges p
  released : ∀ p, .consumed p ∈ s.log → rest p = []
  current : ∀ i p l, (s.workers i).consuming = some (p, l) → rest p = l
  /-- a transaction that waits for none is in one place, any other nowhere -/
  places : ∀ t, s.dag.topLevel.count t + ∑ i, (s.workers i).held.count t + s.log.count (.consumed t) =
    if t < d₀.vtxs.length ∧ due (range d₀.vtxs.length) rest t = 0 then 1 else 0
  executed : ∀ t, s.log.count (.execute t) = ∑ i, (s.workers i).executing.count t + s.log.count (.consumed t)
  consumed : ∀ t, s.log.count (.consume t) =
    ∑ i, ((s.workers i).consuming.map fst).toList.count t + s.log.count (.consumed t)
  ordered : ∀ t l, .execute t :: l <:+ s.log → ∀ p, d₀.Edge p t → .consume p ∈ l
  counted : s.exeCnt + ∑ i, (s.workers i).count = s.log.countP isExecute
  finished : ∀ i, s.workers i = .finished → d₀.vtxs.length ≤ s.exeCnt

lemma sum_setWorker (g : Worker → Nat) (s : ParallelExecution w) (i : Fin w) (y : Worker) :
    ∑ k, g ((s.setWorker i y).workers k) + g (s.workers i) = ∑ k, g (s.workers k) + g y :=
  sum_update (mem_univ i)

lemma forall_setWorker {P : Fin w → Worker → Prop} (hs : ∀ k, k ≠ i → P k (s.workers k))
    (hy : P i y) : ∀ k, P k ((s.setWorker i y).workers k) :=
  (forall_update_iff s.workers P).mpr ⟨hy, hs⟩

lemma Counted.move (h : Counted d₀ s rest) (acts : List TxAction) (hx : s.workers i = x) {exeCnt totalConsume : Nat}
    (hheld : ∀ t, topLevel.count t + y.held.count t + acts.count (.consumed t) =
      s.dag.topLevel.count t + x.held.count t)
    (hexecuting : ∀ t, acts.count (.execute t) + x.executing.count t = y.executing.count t + acts.count (.consumed t))
    (hconsuming : ∀ t, acts.count (.consume t) + (x.consuming.map fst).toList.count t =
      (y.consuming.map fst).toList.count t + acts.count (.consumed t))
    (hcount : exeCnt + y.count = s.exeCnt + x.count + acts.countP isExecute)
    (hle : s.exeCnt ≤ exeCnt) (hfinished : y = .finished → d₀.vtxs.length ≤ exeCnt)
    (hcurrent : ∀ p l, y.consuming = some (p, l) → rest p = l) (hreleased : ∀ p, .consumed p ∈ acts → rest p = [])
    (hordered : ∀ t, .execute t ∈ acts → acts = [.execute t] ∧ ∀ p, d₀.Edge p t → .consume p ∈ s.log) :
    Counted d₀ (setWorker i y { s with
        dag := { s.dag with topLevel := topLevel, totalConsume := totalConsume }, exeCnt := exeCnt, log := acts ++ s.log })
      rest := by
  subst hx
  constructor
  case size => exact h.size
  case out => exact h.out
  case total => exact h.total
  case degree => exact h.degree
  case suffix => exact h.suffix
  case untouched => exact fun p hp => h.untouched p fun hmem => hp (List.mem_append_right _ hmem)
  case released =>
    intro p hp
    rcases List.mem_append.mp hp with hp | hp
    · exact hreleased p hp
    · exact h.released p hp
  case current =>
    apply forall_setWorker (P := fun _ z => ∀ p l, z.consuming = some (p, l) → rest p = l)
    · exact fun k _ => h.current k
    · exact hcurrent
  case places =>
    intro t
    have hsum := sum_setWorker (fun z => z.held.count t) s i y
    have hplaces := h.places t
    have hbalance := hheld t
    simp only [setWorker, List.count_append] at hsum ⊢
    omega
  case executed =>
    intro t
    have hsum := sum_setWorker (fun z => z.executing.count t) s i y
    have hexec := h.executed t
    have hbalance := hexecuting t
    simp only [setWorker, List.count_append] at hsum ⊢
    omega
  case consumed =>
    intro t
    have hsum := sum_setWorker (fun z => (z.consuming.map fst).toList.count t) s i y
    have hcons := h.consumed t
    have hbalance := hconsuming t
    simp only [setWorker, List.count_append] at hsum ⊢
    omega
  case ordered =>
    intro t l hl
    by_cases hacts : .execute t ∈ acts
    · obtain ⟨rfl, hpreds⟩ := hordered t hacts
      rcases List.suffix_cons_iff.mp hl with heq | hold
      · cases heq
        exact hpreds
      · exact h.ordered t l hold
    · exact h.ordered t l (suffix_of_not_mem hl hacts)
  case counted =>
    have hsum := sum_setWorker count s i y
    have hcnt := h.counted
    simp only [setWorker, List.countP_append] at hsum ⊢
    omega
  case finished =>
    apply forall_setWorker (P := fun _ z => z = .finished → d₀.vtxs.length ≤ exeCnt)
    · exact fun k _ hk => (h.finished k hk).trans hle
    · exact hfinished

section Steps

variable {c id p t : Nat} {l : List Nat} {nextId : Option Nat}

lemma mem_held_of_consuming (hx : x.consuming = some (p, l)) : p ∈ x.held := by
  cases x <;> simp_all [consuming, held]

lemma release_eq (hx : s.workers i = .consume c id (t :: l) nextId) {k : Nat} (hlast : s.dag.inDegree t = k + 1) :
    ∃ y, s.release i c id t l nextId = setWorker i y { s with dag := s.dag.countDown t } ∧
      y.executing = [id] ∧ y.consuming = some (id, l) ∧ y.count = c ∧ y ≠ .finished ∧
      ∀ u, y.held.count u = (s.workers i).held.count u + if u = t ∧ k = 0 then 1 else 0 := by
  unfold release
  by_cases hk : k = 0
  · rw [hlast, hk, if_pos rfl]
    cases nextId with
    | none =>
      refine ⟨_, rfl, rfl, rfl, rfl, by simp, fun u => ?_⟩
      simp only [hx, and_true, held, toList_none, toList_some, List.count_cons,
        List.count_nil, beq_iff_eq, eq_comm (a := u)]
      omega
    | some =>
      refine ⟨_, rfl, rfl, rfl, rfl, by simp, fun u => ?_⟩
      simp only [hx, and_true, held, toList_some, List.count_cons, List.count_nil,
        beq_iff_eq, eq_comm (a := u)]
      omega
  · rw [hlast, if_neg (by omega)]
    refine ⟨_, rfl, rfl, rfl, rfl, by simp, fun u => ?_⟩
    rw [if_neg (fun hu => hk hu.2), hx]
    rfl

section

variable (h : Counted d₀ s rest)

include h

lemma Counted.places_le (t : Nat) :
    s.dag.topLevel.count t + ∑ i, (s.workers i).held.count t + s.log.count (.consumed t) ≤ 1 := by
  rw [h.places]
  split <;> omega

lemma Counted.of_held (hp : p ∈ (s.workers i).held) :
    p < d₀.vtxs.length ∧ due (range d₀.vtxs.length) rest p = 0 ∧ .consumed p ∉ s.log ∧
      ∀ k, p ∈ (s.workers k).held → k = i := by
  have hone : 1 ≤ (s.workers i).held.count p := List.one_le_count_iff.mpr hp
  have hsum : (s.workers i).held.count p ≤ ∑ k, (s.workers k).held.count p :=
    single_le_sum_of_canonicallyOrdered (f := fun k => (s.workers k).held.count p) (mem_univ i)
  have hplaces := h.places p
  have hle := h.places_le p
  have hfree : p < d₀.vtxs.length ∧ due (range d₀.vtxs.length) rest p = 0 := by
    by_contra hnot
    rw [if_neg hnot] at hplaces
    omega
  refine ⟨hfree.1, hfree.2, fun hlog => ?_, fun k hk => ?_⟩
  · have : 1 ≤ s.log.count (.consumed p) := List.one_le_count_iff.mpr hlog
    omega
  by_contra hne
  have hone' : 1 ≤ (s.workers k).held.count p := List.one_le_count_iff.mpr hk
  have := add_le_sum (mem_univ k) (mem_univ i) hne fun k => (s.workers k).held.count p
  omega

lemma Counted.not_consume (hp : p ∈ (s.workers i).held) (hx : (s.workers i).consuming = none) : .consume p ∉ s.log := by
  obtain ⟨-, -, hnot, honly⟩ := h.of_held hp
  have hzero : ∑ k, ((s.workers k).consuming.map Prod.fst).toList.count p = 0 := by
    rw [sum_eq_zero_iff]
    intro k _
    rw [List.count_eq_zero]
    intro hmem
    simp only [Option.mem_toList, Option.map_eq_some_iff, Prod.exists, exists_and_right, exists_eq_right] at hmem
    obtain ⟨l, hl⟩ := hmem
    rw [honly k (mem_held_of_consuming hl), hx] at hl
    cases hl
  have hcons := h.consumed p
  rw [hzero, List.count_eq_zero.mpr hnot] at hcons
  exact List.count_eq_zero.mp hcons

lemma Counted.consume_mem (hx : (s.workers i).consuming = some (p, l)) : .consume p ∈ s.log := by
  have hle : ((s.workers i).consuming.map fst).toList.count p ≤
      ∑ k, ((s.workers k).consuming.map fst).toList.count p :=
    single_le_sum_of_canonicallyOrdered
      (f := fun k => ((s.workers k).consuming.map fst).toList.count p) (mem_univ i)
  have hone : ((s.workers i).consuming.map fst).toList.count p = 1 := by
    rw [hx]
    simp
  have hcons := h.consumed p
  rw [← List.count_pos_iff]
  omega

lemma Counted.hasFinished (hx : s.workers i = .hasFinished) :
    Counted d₀ (s.setWorker i (if s.totalParaTxs ≤ s.exeCnt then .finished else .waitPop 0)) rest := by
  split
  case isTrue hle =>
    rw [h.total] at hle
    apply h.move [] hx
    all_goals simp [hle, held, executing, consuming, count]
  case isFalse =>
    apply h.move [] hx
    all_goals simp [held, executing, consuming, count]

lemma Counted.waitPop (hx : s.workers i = .waitPop c)
    (hy : topLevel = s.dag.topLevel ∧ y = .leave c ∨ ∃ id, s.dag.topLevel = id :: topLevel ∧ y = .next c id) :
    Counted d₀ (setWorker i y { s with dag := { s.dag with topLevel := topLevel } }) rest := by
  apply h.move [] hx
  all_goals rcases hy with ⟨htop, rfl⟩ | ⟨id, htop, rfl⟩
  all_goals simp [htop, held, executing, consuming, count, List.count_cons]

lemma Counted.execute (hx : s.workers i = .execute c id) :
    Counted d₀ ((s.note (.consume id)).setWorker i (.consume c id (s.dag.outEdges id) none)) rest := by
  have hid : id ∈ (s.workers i).held := by
    rw [hx]
    exact List.mem_singleton_self id
  have hnot : .consume id ∉ s.log := h.not_consume hid (by rw [hx]; rfl)
  apply h.move [.consume id] hx
  case hcurrent =>
    intro p l hl
    cases hl
    rw [h.untouched id hnot, h.out]
  all_goals simp [held, executing, consuming, count, isExecute, List.count_cons]

lemma Counted.endConsume (hx : s.workers i = .consume c id [] nextId) :
    Counted d₀ (s.endConsume i c id nextId) rest := by
  have hreleased : ∀ p, .consumed p ∈ [TxAction.consumed id] → rest p = [] := by
    intro p hp
    cases List.mem_singleton.mp hp
    exact h.current i id [] (by rw [hx]; rfl)
  cases nextId with
  | none =>
    apply h.move [.consumed id] hx
    case hreleased => exact hreleased
    all_goals simp [held, executing, consuming, count, isExecute, List.count_cons]
  | some =>
    apply h.move [.consumed id] hx
    case hreleased => exact hreleased
    all_goals simp [held, executing, consuming, count, isExecute, List.count_cons]
    omega

lemma Counted.push (hx : s.workers i = .push c id t l nextId) : Counted d₀ (setWorker i (.consume c id l nextId)
      { s with dag := { s.dag with topLevel := s.dag.topLevel ++ [t] } }) rest := by
  have hcurrent := h.current i
  rw [hx] at hcurrent
  apply h.move [] hx
  case hcurrent => exact hcurrent
  case hheld =>
    intro u
    simp only [held, List.count_append, List.count_cons, List.count_nil]
    omega
  all_goals simp [executing, consuming, count]

lemma Counted.leave (hx : s.workers i = .leave c) :
    Counted d₀ (setWorker i .hasFinished { s with exeCnt := s.exeCnt + c }) rest := by
  apply h.move [] hx
  all_goals simp [held, executing, consuming, count]

lemma Counted.update_rest {l' : List Nat} (hcur : (s.workers i).consuming = some (id, l')) :
    (∀ p, .consume p ∉ s.log → update rest id l p = d₀.outEdges p) ∧ (∀ p, .consumed p ∈ s.log → update rest id l p = []) ∧
      ∀ k, k ≠ i → ∀ p m, (s.workers k).consuming = some (p, m) → update rest id l p = m := by
  obtain ⟨-, -, hnot, honly⟩ := h.of_held (mem_held_of_consuming hcur)
  refine ⟨fun p hp => ?_, fun p hp => ?_, fun k hk p m hm => ?_⟩
  · have hne : p ≠ id := by
      rintro rfl
      exact hp (h.consume_mem hcur)
    rw [update_of_ne hne]
    exact h.untouched p hp
  · have hne : p ≠ id := by
      rintro rfl
      exact hnot hp
    rw [update_of_ne hne]
    exact h.released p hp
  · have hne : p ≠ id := by
      rintro rfl
      exact hk (honly k (mem_held_of_consuming hm))
    rw [update_of_ne hne]
    exact h.current k p m hm

variable (hup : ∀ p t, d₀.Edge p t → p < t ∧ t < d₀.vtxs.length)

include hup

lemma Counted.next (hx : s.workers i = .next c id) :
    Counted d₀ ((s.note (.execute id)).setWorker i (.execute (c + 1) id)) rest := by
  have hid : id ∈ (s.workers i).held := by
    rw [hx]
    exact List.mem_singleton_self id
  obtain ⟨-, hdue, -, -⟩ := h.of_held hid
  -- all edges into the transaction have been counted down, so their beginnings are consumed
  have hpreds : ∀ p, d₀.Edge p id → .consume p ∈ s.log := by
    intro p hp
    by_contra hnot
    have hlt := hup p id hp
    apply due_eq_zero_iff.mp hdue p (mem_range.mpr (hlt.1.trans hlt.2))
    rw [h.untouched p hnot]
    exact hp
  apply h.move [.execute id] hx
  case hordered =>
    intro t ht
    cases List.mem_singleton.mp ht
    exact ⟨rfl, hpreds⟩
  all_goals simp [held, executing, consuming, count, isExecute, List.count_cons]
  omega

/-- An edge is counted down. The transaction at its end waits for one less, and if it waits for none now the thread
takes it. -/
theorem Counted.release (hx : s.workers i = .consume c id (t :: l) nextId) :
    Counted d₀ (s.release i c id t l nextId) (update rest id l) := by
  have hcur : (s.workers i).consuming = some (id, t :: l) := by
    rw [hx]
    rfl
  have hrest : rest id = t :: l := h.current i id (t :: l) hcur
  have hsuffix : t :: l <:+ d₀.outEdges id := hrest ▸ h.suffix id
  obtain ⟨hid, ht⟩ := hup id t (hsuffix.subset List.mem_cons_self)
  obtain ⟨huntouched, hreleased, hothers⟩ := h.update_rest (l := l) hcur
  have hdue := due_of_cons (mem_range.mpr (hid.trans ht)) hrest
  have hlast : s.dag.inDegree t = due (range d₀.vtxs.length) (update rest id l) t + 1 := by
    rw [h.degree t ht, hdue, if_pos rfl]
  obtain ⟨y, hy, hexecuting, hconsuming, hcount, hunfinished, hheld⟩ := release_eq hx hlast
  rw [hy]
  constructor
  case size => exact (List.length_modify _ _ _).trans h.size
  case out => exact (outEdges_countDown t).trans h.out
  case total => exact h.total
  case degree =>
    intro u hu
    change (s.dag.countDown t).inDegree u = _
    rw [inDegree_countDown]
    by_cases hut : u = t
    · rw [if_pos hut, hlast, hut]
      omega
    · rw [if_neg hut, h.degree u hu, hdue, if_neg hut, add_zero]
  case suffix =>
    refine (forall_update_iff rest fun p l => l <:+ d₀.outEdges p).mpr ⟨?_, fun p _ => h.suffix p⟩
    exact (List.suffix_cons t l).trans hsuffix
  case untouched => exact huntouched
  case released => exact hreleased
  case current =>
    apply forall_setWorker (P := fun _ z => ∀ p m, z.consuming = some (p, m) → update rest id l p = m)
    · exact hothers
    · intro p m hm
      rw [hconsuming] at hm
      cases hm
      exact update_self _ _ _
  case places =>
    intro u
    have hsum := sum_setWorker (fun z => z.held.count u) s i y
    have hplaces := h.places u
    have hbalance := hheld u
    simp only [setWorker] at hsum ⊢
    rw [hdue] at hplaces
    change s.dag.topLevel.count u + _ + _ = _
    by_cases hut : u = t
    · simp only [hut, if_true, Nat.add_eq_zero_iff, one_ne_zero, and_false, if_false, ht, true_and] at *
      omega
    · simp only [hut, if_false, add_zero, false_and] at hplaces hbalance ⊢
      omega
  case executed =>
    intro u
    have hsum := sum_setWorker (fun z => z.executing.count u) s i y
    have hexec := h.executed u
    have hold : (s.workers i).executing = [id] := by
      rw [hx]
      rfl
    simp only [setWorker, hexecuting, hold] at hsum ⊢
    omega
  case consumed =>
    intro u
    have hsum := sum_setWorker (fun z => (z.consuming.map fst).toList.count u) s i y
    have hcons := h.consumed u
    simp only [setWorker, hconsuming, hcur, map_some] at hsum ⊢
    omega
  case ordered => exact h.ordered
  case counted =>
    have hsum := sum_setWorker count s i y
    have hcnt := h.counted
    have hold : (s.workers i).count = c := by
      rw [hx]
      rfl
    simp only [setWorker, hcount, hold] at hsum ⊢
    omega
  case finished =>
    apply forall_setWorker (P := fun _ z => z = .finished → d₀.vtxs.length ≤ s.exeCnt)
    · exact fun k _ => h.finished k
    · exact fun hfin => absurd hfin hunfinished

lemma Counted.step (i : Fin w) : ∃ rest', Counted d₀ (s.step i) rest' := by
  unfold ParallelExecution.step
  cases hx : s.workers i with
  | hasFinished => exact ⟨rest, h.hasFinished hx⟩
  | waitPop =>
    cases htop : s.dag.topLevel with
    | nil => exact ⟨rest, h.waitPop hx (.inl ⟨rfl, rfl⟩)⟩
    | cons id => exact ⟨rest, h.waitPop hx (.inr ⟨id, htop, rfl⟩)⟩
  | next => exact ⟨rest, h.next hup hx⟩
  | execute => exact ⟨rest, h.execute hx⟩
  | consume c id l =>
    cases l with
    | nil => exact ⟨rest, h.endConsume hx⟩
    | cons => exact ⟨_, h.release hup hx⟩
  | push => exact ⟨rest, h.push hx⟩
  | leave => exact ⟨rest, h.leave hx⟩
  | finished => exact ⟨rest, h⟩

end

end Steps

lemma counted_start {d : DAG} (hd : d.Consistent) (htop : d.topLevel = []) (htotal : d.totalVtxs = d.vtxs.length) :
    Counted d.generate (start d.generate : ParallelExecution w) d.outEdges := by
  constructor
  case size => rfl
  case out => rfl
  case total => exact htotal
  case degree => exact hd
  case suffix => exact fun p => List.suffix_rfl
  case untouched => exact fun p _ => rfl
  case released => exact fun p hp => absurd hp List.not_mem_nil
  case current => exact fun k p l hl => absurd hl (by simp [start, consuming])
  case places =>
    intro t
    have hmem : t ∈ d.generate.topLevel ↔ t < d.vtxs.length ∧ due (range d.vtxs.length) d.outEdges t = 0 := by
      unfold generate
      rw [htop, List.nil_append, List.mem_filter, List.mem_range]
      apply and_congr_right
      intro ht
      rw [← hd t ht, inDegree, List.getElem?_eq_getElem ht]
      simp
    have hnodup : d.generate.topLevel.Nodup := by
      unfold generate
      rw [htop, List.nil_append]
      exact List.nodup_range.filter _
    have hcount : d.generate.topLevel.count t =
        if t < d.vtxs.length ∧ due (range d.vtxs.length) d.outEdges t = 0 then 1 else 0 := by
      rw [hnodup.count]
      simp only [hmem]
    have hsum : ∑ k, (((start d.generate : ParallelExecution w)).workers k).held.count t = 0 :=
      sum_eq_zero fun k _ => List.count_nil
    rw [hsum]
    exact hcount
  case executed => simp [start, executing]
  case consumed => simp [start, consuming]
  case ordered => exact fun t l hl => absurd hl (by simp [start])
  case counted => simp [start, count]
  case finished => exact fun k hk => absurd hk (by simp [start])

variable {t : Nat}

section

lemma executing_le_held : x.executing.count t ≤ x.held.count t := by
  cases x <;> simp [executing, held, List.count_cons]

section

variable (h : Counted d₀ s rest)

include h

lemma Counted.executed_le (t : Nat) : s.log.count (.execute t) ≤ 1 := by
  have hle : ∑ k, (s.workers k).executing.count t ≤ ∑ k, (s.workers k).held.count t :=
    sum_le_sum fun k _ => executing_le_held
  have hexec := h.executed t
  have hplaces := h.places_le t
  omega

lemma Counted.lt_of_executed (ht : .execute t ∈ s.log) : t < d₀.vtxs.length := by
  have hle : ∑ k, (s.workers k).executing.count t ≤ ∑ k, (s.workers k).held.count t :=
    sum_le_sum fun k _ => executing_le_held
  have hone : 1 ≤ s.log.count (.execute t) := List.one_le_count_iff.mpr ht
  have hexec := h.executed t
  have hplaces := h.places t
  by_contra hnot
  rw [if_neg fun hfree => hnot hfree.1] at hplaces
  omega

section

variable (hup : ∀ p t, d₀.Edge p t → p < t) (hidle : s.Idle)

include hup hidle

lemma Counted.consumed_of_idle (t : Nat) (ht : t < d₀.vtxs.length) : .consumed t ∈ s.log := by
  induction t using Nat.strong_induction_on with
  | _ t ih =>
    have hfree : due (range d₀.vtxs.length) rest t = 0 := by
      rw [due_eq_zero_iff]
      intro p _ hmem
      have hlt : p < t := hup p t ((h.suffix p).subset hmem)
      rw [h.released p (ih p hlt (hlt.trans ht))] at hmem
      exact List.not_mem_nil hmem
    have hplaces := h.places t
    rw [hidle.1, if_pos ⟨ht, hfree⟩] at hplaces
    simp only [hidle.2, List.count_nil, sum_const_zero, zero_add] at hplaces
    rw [← List.count_pos_iff]
    omega

lemma Counted.executed_of_idle (ht : t < d₀.vtxs.length) : s.log.count (.execute t) = 1 := by
  have hconsumed : 1 ≤ s.log.count (.consumed t) := List.one_le_count_iff.mpr (h.consumed_of_idle hup hidle t ht)
  have hexec := h.executed t
  have hle := h.executed_le t
  omega

end

lemma Counted.executed_of_stuck (hw : 0 < w) (hstuck : s.Stuck)
    (ht : t < d₀.vtxs.length) : s.log.count (.execute t) = 1 := by
  have hcount : ∀ u, (s.log.filterMap TxAction.executed).count u = s.log.count (.execute u) := by
    intro u
    rw [List.count_filterMap, List.count]
    apply List.countP_congr
    intro a _
    cases a <;> simp [TxAction.executed]
  have hnodup : (s.log.filterMap TxAction.executed).Nodup := by
    rw [List.nodup_iff_count_le_one]
    intro u
    rw [hcount]
    exact h.executed_le u
  have hsub : s.log.filterMap TxAction.executed ⊆ List.range d₀.vtxs.length := by
    intro u hu
    rw [List.mem_range]
    apply h.lt_of_executed
    rwa [← List.count_pos_iff, ← hcount, List.count_pos_iff]
  have hlen : d₀.vtxs.length ≤ (s.log.filterMap TxAction.executed).length := by
    have hfinished := h.finished ⟨0, hw⟩ (hstuck _)
    have hcounted := h.counted
    have hsame : (s.log.filterMap TxAction.executed).length = s.log.countP TxAction.isExecute := by
      rw [List.length_filterMap_eq_countP]
      apply List.countP_congr
      intro a _
      cases a <;> simp [TxAction.executed, TxAction.isExecute]
    omega
  have hperm := (hnodup.subperm hsub).perm_of_length_le (by rwa [List.length_range])
  have hmem : t ∈ s.log.filterMap TxAction.executed := hperm.mem_iff.mpr (List.mem_range.mpr ht)
  have hone : 1 ≤ s.log.count (.execute t) := by
    rw [← hcount]
    exact List.one_le_count_iff.mpr hmem
  have hle := h.executed_le t
  omega

end

variable {n : Nat} {edges : List (Nat × Nat)}

lemma counted_run (hedges : ∀ e ∈ edges, e.1 < e.2 ∧ e.2 < n) {is : List (Fin w)} :
    let d₀ := build n edges
    (d₀.vtxs.length = n ∧ ∀ p t, d₀.Edge p t ↔ (p, t) ∈ edges) ∧
      ∃ rest, Counted d₀ (run step (start d₀ : ParallelExecution w) is) rest := by
  obtain ⟨hcons, hlen, hedge, htop, htotal⟩ := consistent_foldl_addEdge (consistent_init n)
    (by simp [init]) hedges
  have hedge' : ∀ p t, (build n edges).Edge p t ↔ (p, t) ∈ edges := by
    intro p t
    refine (hedge p t).trans (or_iff_right ?_)
    exact not_edge_init n p t
  refine ⟨⟨hlen, hedge'⟩, ?_⟩
  apply run_induction (fun s => ∃ rest, Counted _ s rest)
  · rintro s i ⟨rest, h⟩
    apply h.step
    intro p t hpt
    have hlt := hedges (p, t) ((hedge' p t).mp hpt)
    exact ⟨hlt.1, hlt.2.trans_le (le_of_eq hlen.symm)⟩
  · refine ⟨_, counted_start hcons (htop.trans rfl) (htotal.trans ?_)⟩
    rw [hlen]
    rfl

/-- On every graph whose edges go up, with any number of threads and in every interleaving, no transaction is executed
twice, and each one only when all its predecessors have been given to `consume` and their edges to it are counted down.
When the threads have nothing left to do all transactions are executed. -/
theorem executed_exactly_once (hedges : ∀ e ∈ edges, e.1 < e.2 ∧ e.2 < n) (hw : 0 < w) (is : List (Fin w)) :
    let s : ParallelExecution w := run step (start (build n edges)) is
    (∀ t, s.log.count (.execute t) ≤ 1) ∧
      (∀ t l, .execute t :: l <:+ s.log → t < n ∧ ∀ p, (p, t) ∈ edges → .consume p ∈ l) ∧
      (∀ i c t, s.workers i = .next c t → s.dag.inDegree t = 0) ∧
      (s.Idle ∨ s.Stuck → ∀ t < n, s.log.count (.execute t) = 1) := by
  obtain ⟨⟨hlen, hedge⟩, rest, h⟩ := counted_run (w := w) hedges
  refine ⟨h.executed_le, fun t l hl => ⟨?_, fun p hp => ?_⟩, fun i c t hx => ?_, ?_⟩
  · rw [← hlen]
    exact h.lt_of_executed (hl.subset List.mem_cons_self)
  · exact h.ordered t l hl p ((hedge p t).mpr hp)
  · obtain ⟨ht, hfree, -, -⟩ := h.of_held (i := i) (p := t) (by rw [hx]; exact List.mem_singleton_self t)
    rw [h.degree t ht, hfree]
  · rintro (hidle | hstuck) t ht
    · exact h.executed_of_idle (fun p u hpu => (hedges (p, u) ((hedge p u).mp hpu)).1) hidle
        (ht.trans_le (le_of_eq hlen.symm))
    · exact h.executed_of_stuck hw hstuck (ht.trans_le (le_of_eq hlen.symm))

theorem executed_exactly_once_triangle :
    (run step (start (build 3 [(0, 1), (0, 2), (1, 2)]) : ParallelExecution 2)
        (List.replicate 20 [0, 1]).flatten).Stuck ∧
      ∀ t < 3, (run step (start (build 3 [(0, 1), (0, 2), (1, 2)]) : ParallelExecution 2)
        (List.replicate 20 [0, 1]).flatten).log.count (.execute t) = 1 := by
  have hstuck : (run step (start (build 3 [(0, 1), (0, 2), (1, 2)]) : ParallelExecution 2)
      (List.replicate 20 [0, 1]).flatten).Stuck := by
    unfold Stuck
    decide +kernel
  exact ⟨hstuck, (executed_exactly_once (by decide) (by decide) _).2.2.2 (.inr hstuck)⟩

end

end ParallelExecution

end FiscoBcos
