import FiscoBcos.BlockVerifier.TxDag
import FiscoBcos.Lib.Run

/-!
# Handles

`ExecutiveContext::registerPrecompiled`: contracts for tables, entries and conditions get their addresses from one counter,
which all transactions of a block share. Of a transaction only its dealings with the context are kept here.
-/

namespace FiscoBcos

open Machine TxDAG List

variable {P R : Type*}

/-- What `ExecutiveContext` keeps of them. -/
structure ContextRegistry (P : Type*) where
  addressCount : Nat := 0x10000
  address2Precompiled : Nat → Option P := fun _ => none

/-- The counter is an `int`. `insert` leaves a contract that is there. -/
def ContextRegistry.registerPrecompiled (p : P) (c : ContextRegistry P) : Nat × ContextRegistry P :=
  let count := (c.addressCount + 1) % 0x100000000
  (count, ⟨count, fun a => if a = count then (c.address2Precompiled a).or (some p) else c.address2Precompiled a⟩)

inductive TxHandles (P R : Type*) where
  | done (result : R)
  | registerPrecompiled (p : P) (next : Nat → TxHandles P R)
  | getPrecompiled (address : Nat) (next : Option P → TxHandles P R)

namespace TxHandles

def isDone : TxHandles P R → Bool
  | done _ => true
  | _ => false

def advance (c : ContextRegistry P) : TxHandles P R → ContextRegistry P × TxHandles P R
  | done result => (c, done result)
  | registerPrecompiled p next => ((c.registerPrecompiled p).2, next (c.registerPrecompiled p).1)
  | getPrecompiled address next => (c, next (c.address2Precompiled address))

def finish (c : ContextRegistry P) : TxHandles P R → ContextRegistry P × R
  | done result => (c, result)
  | registerPrecompiled p next => (next (c.registerPrecompiled p).1).finish (c.registerPrecompiled p).2
  | getPrecompiled address next => (next (c.address2Precompiled address)).finish c

/-- The addresses that a transaction gets while it has the context to itself. -/
def addresses (c : ContextRegistry P) : TxHandles P R → List Nat
  | done _ => []
  | registerPrecompiled p next =>
    (c.registerPrecompiled p).1 :: (next (c.registerPrecompiled p).1).addresses (c.registerPrecompiled p).2
  | getPrecompiled address next => (next (c.address2Precompiled address)).addresses c

/-- The address that the next access registers. -/
def registered (c : ContextRegistry P) : TxHandles P R → Option Nat
  | registerPrecompiled p _ => some (c.registerPrecompiled p).1
  | _ => none

section

variable {c c' : ContextRegistry P} {x : TxHandles P R}

/-- What a transaction does next, and what is left of it. -/
lemma addresses_advance (c : ContextRegistry P) (x : TxHandles P R) :
    x.addresses c = (x.registered c).toList ++ (x.advance c).2.addresses (x.advance c).1 ∧
      x.finish c = (x.advance c).2.finish (x.advance c).1 := by
  cases x <;> exact ⟨rfl, rfl⟩

lemma context_advance (h : x.registered c = none) : (x.advance c).1 = c := by
  cases x with
  | registerPrecompiled => cases h
  | _ => rfl

lemma eq_done (h : x.isDone = true) (c : ContextRegistry P) : x = .done (x.finish c).2 := by
  cases x with
  | done => rfl
  | _ => cases h

lemma isDone_advance (h : x.isDone = true) : (x.advance c).2.isDone = true := by
  rw [eq_done h c]
  rfl

lemma isDone_eq_false (h : x.addresses c ≠ []) : x.isDone = false := by
  cases x with
  | done => exact absurd rfl h
  | _ => rfl

lemma registerPrecompiled_ne_none (c : ContextRegistry P) (p : P) :
    (c.registerPrecompiled p).2.address2Precompiled (c.registerPrecompiled p).1 ≠ none := by
  simp [ContextRegistry.registerPrecompiled]

end

end TxHandles

open TxHandles

/-- `handles` records which transaction has got which addresses. -/
structure HandleExecution (P R : Type*) where
  context : ContextRegistry P := {}
  txs : List (TxHandles P R)
  handles : List (Nat × Nat) := []

namespace HandleExecution

/-- One access of a transaction to the context. -/
def step (s : HandleExecution P R) (t : Nat) : HandleExecution P R :=
  match s.txs[t]? with
  | none => s
  | some tx =>
    { context := (tx.advance s.context).1
      txs := s.txs.set t (tx.advance s.context).2
      handles := s.handles ++ (tx.registered s.context).toList.map (t, ·) }

/-- A transaction begins after all that the graph puts before it have ended. -/
def Respects (d : DAG) (s : HandleExecution P R) (t : Nat) : Prop :=
  ∀ p, d.Path p t → ∀ tx ∈ s.txs[p]?, tx.isDone = true

/-- The addresses that a transaction has got. -/
def handlesOf (s : HandleExecution P R) (t : Nat) : List Nat :=
  (s.handles.filter fun h => h.1 = t).map Prod.snd

/-- All executions that come to their end give every transaction the same addresses and the same result, and in none of
them is an address a contract for another transaction that still runs. -/
structure ScheduleFree (d : DAG) (s : HandleExecution P R) : Prop where
  same : ∀ ts ts', Along step (Respects d) s ts → Along step (Respects d) s ts' →
    (∀ x ∈ (run step s ts).txs, x.isDone = true) → (∀ x ∈ (run step s ts').txs, x.isDone = true) →
      (run step s ts).txs = (run step s ts').txs ∧
        ∀ t < s.txs.length, (run step s ts).handlesOf t = (run step s ts').handlesOf t
  own : ∀ ts, Along step (Respects d) s ts → ∀ h ∈ (run step s ts).handles, ∀ t ≠ h.1, ∀ x : TxHandles P R,
    (run step s ts).txs[t]? = some x → x.isDone = false → (run step s ts).context.address2Precompiled h.2 = none

/-- A transaction that would register a contract in the context of the block comes after all others that use the
context. -/
def RegistersLast (d : DAG) (s : HandleExecution P R) : Prop :=
  ∀ (k j : Nat) (x y : TxHandles P R), s.txs[k]? = some x → s.txs[j]? = some y → x.addresses s.context ≠ [] →
    j ≠ k → y.isDone = false → d.Path j k

variable {d : DAG} {s s₀ s' : HandleExecution P R} {t u : Nat} {x y z : TxHandles P R}

section

lemma step_none (hx : s.txs[t]? = none) : s.step t = s := by
  unfold step
  rw [hx]

lemma step_some (hx : s.txs[t]? = some x) : s.step t =
    { context := (x.advance s.context).1
      txs := s.txs.set t (x.advance s.context).2
      handles := s.handles ++ (x.registered s.context).toList.map (t, ·) } := by
  unfold step
  rw [hx]

lemma getElem?_step (hx : s.txs[t]? = some x) : (s.step t).txs[t]? = some (x.advance s.context).2 := by
  obtain ⟨hlt, -⟩ := List.getElem?_eq_some_iff.mp hx
  rw [step_some hx]
  exact getElem?_set_self hlt

lemma getElem?_step_of_ne (h : u ≠ t) : (s.step t).txs[u]? = s.txs[u]? := by
  cases hx : s.txs[t]? with
  | none => rw [step_none hx]
  | some x =>
    rw [step_some hx]
    exact getElem?_set_ne (Ne.symm h)

lemma handlesOf_step (hx : s.txs[t]? = some x) :
    (s.step t).handlesOf t = s.handlesOf t ++ (x.registered s.context).toList := by
  rw [step_some hx]
  unfold handlesOf
  cases x.registered s.context <;> simp

lemma handlesOf_step_of_ne (h : u ≠ t) : (s.step t).handlesOf u = s.handlesOf u := by
  cases hx : s.txs[t]? with
  | none => rw [step_none hx]
  | some x =>
    rw [step_some hx]
    unfold handlesOf
    cases x.registered s.context <;> simp [Ne.symm h]

end

section

/-- Every transaction goes on as if it had the context to itself. -/
structure Alone (s₀ s : HandleExecution P R) : Prop where
  length : s.txs.length = s₀.txs.length
  solo : ∀ (t : Nat) (x y : TxHandles P R), s₀.txs[t]? = some x → s.txs[t]? = some y →
    s.handlesOf t ++ y.addresses s.context = x.addresses s₀.context ∧ (y.finish s.context).2 = (x.finish s₀.context).2
  ended : ∀ (t : Nat) (x y : TxHandles P R), s₀.txs[t]? = some x → s.txs[t]? = some y → x.isDone = true → y.isDone = true
  others : ∀ h ∈ s.handles, ∀ t ≠ h.1, ∀ y : TxHandles P R, s.txs[t]? = some y → y.isDone = true

lemma Alone.exists_start (h : Alone s₀ s) (hy : s.txs[t]? = some y) : ∃ x, s₀.txs[t]? = some x := by
  obtain ⟨hlt, -⟩ := List.getElem?_eq_some_iff.mp hy
  exact ⟨_, List.getElem?_eq_getElem (h.length ▸ hlt)⟩

/-- When a transaction registers a contract, all others have ended. -/
lemma Alone.others_of_register (hlast : s₀.RegistersLast d) (h : Alone s₀ s) (ht : Respects d s t)
    (hy : s.txs[t]? = some y) (hregister : y.addresses s.context ≠ []) (hu : u ≠ t)
    (hz : s.txs[u]? = some z) : z.isDone = true := by
  cases hhandles : s.handles with
  | cons e _ =>
    have he : e ∈ s.handles := by simp [hhandles]
    by_cases hown : e.1 = t
    · exact h.others e he u (hown ▸ hu) z hz
    · have hdone := h.others e he t (Ne.symm hown) y hy
      rw [isDone_eq_false hregister] at hdone
      cases hdone
  | nil =>
    by_contra hnot
    obtain ⟨x, hx⟩ := h.exists_start hy
    obtain ⟨w, hw⟩ := h.exists_start hz
    have hfirst : x.addresses s₀.context ≠ [] := by
      rw [← (h.solo t x y hx hy).1]
      simp [hregister]
    have hruns : w.isDone = false := by
      by_contra hdone
      exact hnot (h.ended u w z hw hz (by simpa using hdone))
    exact hnot (ht u (hlast t u x w hx hw hfirst hu hruns) z hz)

/-- The others have ended, or they see the context that they have seen before. -/
lemma Alone.others_step (hlast : s₀.RegistersLast d) (ht : Respects d s t) (h : Alone s₀ s) (hu : u ≠ t)
    (hz : s.txs[u]? = some z) : (s.step t).context = s.context ∧ (s.step t).handles = s.handles ∨ z.isDone = true := by
  cases hy : s.txs[t]? with
  | none =>
    rw [step_none hy]
    exact .inl ⟨rfl, rfl⟩
  | some y =>
    cases hregister : y.registered s.context with
    | none =>
      refine .inl ?_
      rw [step_some hy, context_advance hregister, hregister]
      exact ⟨rfl, append_nil _⟩
    | some a =>
      refine .inr (h.others_of_register hlast ht hy ?_ hu hz)
      rw [(addresses_advance s.context y).1, hregister]
      simp

lemma alone_step (hlast : s₀.RegistersLast d) (ht : Respects d s t) (h : Alone s₀ s) : Alone s₀ (s.step t) := by
  cases hy : s.txs[t]? with
  | none =>
    rw [step_none hy]
    exact h
  | some y =>
    refine ⟨?_, fun u x z hx hz => ?_, fun u x z hx hz hdone => ?_, fun e he u hu z hz => ?_⟩
    · rw [step_some hy, length_set, h.length]
    · by_cases hu : u = t
      · subst hu
        obtain rfl := Option.some.inj ((getElem?_step hy).symm.trans hz)
        obtain ⟨haddresses, hfinish⟩ := addresses_advance s.context y
        obtain ⟨hsolo, hresult⟩ := h.solo u x y hx hy
        rw [handlesOf_step hy, append_assoc, ← hsolo, ← hresult, haddresses, hfinish, step_some hy]
        exact ⟨rfl, rfl⟩
      · rw [getElem?_step_of_ne hu] at hz
        rw [handlesOf_step_of_ne hu, ← (h.solo u x z hx hz).1, ← (h.solo u x z hx hz).2]
        rcases h.others_step hlast ht hu hz with ⟨hcontext, -⟩ | hdone
        · rw [hcontext]
          exact ⟨rfl, rfl⟩
        · rw [eq_done hdone s.context]
          exact ⟨rfl, rfl⟩
    · by_cases hu : u = t
      · subst hu
        obtain rfl := Option.some.inj ((getElem?_step hy).symm.trans hz)
        exact isDone_advance (h.ended u x y hx hy hdone)
      · rw [getElem?_step_of_ne hu] at hz
        exact h.ended u x z hx hz hdone
    · by_cases hut : u = t
      · subst hut
        obtain rfl := Option.some.inj ((getElem?_step hy).symm.trans hz)
        rw [step_some hy] at he
        rcases mem_append.mp he with hold | hnew
        · exact isDone_advance (h.others e hold u hu y hy)
        · obtain ⟨a, -, rfl⟩ := mem_map.mp hnew
          exact absurd rfl hu
      · rw [getElem?_step_of_ne hut] at hz
        rcases h.others_step hlast ht hut hz with ⟨-, hhandles⟩ | hdone
        · exact h.others e (hhandles ▸ he) u hu z hz
        · exact hdone

lemma alone_run (hs : s.handles = []) (hlast : s.RegistersLast d) {ts : List Nat}
    (hts : Along step (Respects d) s ts) : Alone s (run step s ts) := by
  refine invariant_run (Alone s) (fun s' t ht h => alone_step hlast ht h) ⟨rfl, fun t x y hx hy => ?_,
    fun t x y hx hy hdone => ?_, fun e he => ?_⟩ hts
  · cases hx.symm.trans hy
    simp [handlesOf, hs]
  · cases hx.symm.trans hy
    exact hdone
  · rw [hs] at he
    cases he

lemma Alone.handlesOf_eq (h : Alone s₀ s) (hdone : ∀ x ∈ s.txs, x.isDone = true) (hx : s₀.txs[t]? = some x) :
    s.handlesOf t = x.addresses s₀.context ∧ s.txs[t]? = some (.done (x.finish s₀.context).2) := by
  obtain ⟨hlt, -⟩ := List.getElem?_eq_some_iff.mp hx
  have hy := List.getElem?_eq_getElem (h.length ▸ hlt : t < s.txs.length)
  have hend := eq_done (hdone _ (mem_of_getElem? hy)) s.context
  obtain ⟨hsolo, hresult⟩ := h.solo t x _ hx hy
  rw [hresult] at hend
  rw [hend] at hsolo hy
  exact ⟨(append_nil _).symm.trans hsolo, hy⟩

lemma Alone.txs_eq (h : Alone s₀ s) (hdone : ∀ x ∈ s.txs, x.isDone = true) :
    s.txs = s₀.txs.map fun x => .done (x.finish s₀.context).2 := by
  refine List.ext_getElem? fun t => ?_
  rw [getElem?_map]
  cases hx : s₀.txs[t]? with
  | none =>
    rw [getElem?_eq_none_iff] at hx
    rw [getElem?_eq_none_iff.mpr (h.length ▸ hx)]
    rfl
  | some x => exact (h.handlesOf_eq hdone hx).2

lemma scheduleFree_of_registersLast (hs : s.handles = []) (hlast : s.RegistersLast d) : s.ScheduleFree d where
  same ts ts' hts hts' hdone hdone' := by
    have h := alone_run hs hlast hts
    have h' := alone_run hs hlast hts'
    refine ⟨(h.txs_eq hdone).trans (h'.txs_eq hdone').symm, fun t ht => ?_⟩
    have hx := List.getElem?_eq_getElem ht
    exact (h.handlesOf_eq hdone hx).1.trans (h'.handlesOf_eq hdone' hx).1.symm
  own ts hts e he t ht x hx hruns := by
    have hdone := (alone_run hs hlast hts).others e he t ht x hx
    rw [hruns] at hdone
    cases hdone

end

section

variable {T : Type*} [DecidableEq T] {criticals : List (Option (List T))}

lemma path_lt {p : Nat}
    (h : (init criticals).Path p t) : p < t := by
  have hup := (ordered_take criticals (le_refl _)).up
  rw [take_length] at hup
  induction h with
  | single h => exact (hup _ _ h).1
  | tail _ h ih => exact ih.trans (hup _ _ h).1

lemma Respects.step (h : Respects (init criticals) s t) : Respects (init criticals) (s.step t) t := by
  intro p hp tx htx
  rw [getElem?_step_of_ne (path_lt hp).ne] at htx
  exact h p hp tx htx

/-- A transaction that registers nothing can be run to its end. -/
lemma exists_ended (x : TxHandles P R) (hx : s.txs[t]? = some x) (ht : Respects (init criticals) s t)
    (haddresses : x.addresses s.context = []) :
    ∃ s', Reaches step (Respects (init criticals)) s s' ∧ s'.context = s.context ∧
      (∀ u ≠ t, s'.txs[u]? = s.txs[u]?) ∧ ∀ y ∈ s'.txs[t]?, y.isDone = true := by
  induction x generalizing s with
  | done r =>
    refine ⟨s, .refl s, rfl, fun _ _ => rfl, fun y hy => ?_⟩
    cases hx.symm.trans hy
    rfl
  | registerPrecompiled => cases haddresses
  | getPrecompiled address next ih =>
    have hcontext : (s.step t).context = s.context := by
      rw [step_some hx]
      rfl
    obtain ⟨s', hreach, hcontext', hothers, hdone⟩ := ih _ (getElem?_step hx) ht.step (by rwa [hcontext])
    refine ⟨s', (Reaches.single ht).trans hreach, hcontext'.trans hcontext, fun u hu => ?_, hdone⟩
    exact (hothers u hu).trans (getElem?_step_of_ne hu)

/-- One that registers something can be run until it has done so. -/
lemma exists_registered (x : TxHandles P R) (hx : s.txs[t]? = some x) (ht : Respects (init criticals) s t)
    (haddresses : x.addresses s.context ≠ []) :
    ∃ s', Reaches step (Respects (init criticals)) s s' ∧ (∀ u ≠ t, s'.txs[u]? = s.txs[u]?) ∧
      ∃ a, (t, a) ∈ s'.handles ∧ s'.context.address2Precompiled a ≠ none := by
  induction x generalizing s with
  | done => exact absurd rfl haddresses
  | registerPrecompiled p next =>
    refine ⟨s.step t, .single ht, fun u hu => getElem?_step_of_ne hu, (s.context.registerPrecompiled p).1, ?_⟩
    rw [step_some hx]
    exact ⟨mem_append_right _ (mem_singleton_self _), registerPrecompiled_ne_none s.context p⟩
  | getPrecompiled address next ih =>
    have hcontext : (s.step t).context = s.context := by
      rw [step_some hx]
      rfl
    obtain ⟨s', hreach, hothers, hregistered⟩ := ih _ (getElem?_step hx) ht.step (by rwa [hcontext])
    refine ⟨s', (Reaches.single ht).trans hreach, fun u hu => ?_, hregistered⟩
    exact (hothers u hu).trans (getElem?_step_of_ne hu)

/-- The transactions that the graph puts before a transaction can be run to their ends one after the other. -/
lemma exists_prepared (criticals : List (Option (List T))) {k : Nat}
    (hfirst : ∀ p < k, ∀ z : TxHandles P R, s.txs[p]? = some z → z.addresses s.context = []) (n : Nat) (hn : n ≤ k) :
    ∃ s', Reaches step (Respects (init criticals)) s s' ∧ s'.context = s.context ∧
      (∀ u, ¬((init criticals).Path u k ∧ u < n) → s'.txs[u]? = s.txs[u]?) ∧
        ∀ p < n, (init criticals).Path p k → ∀ y ∈ s'.txs[p]?, y.isDone = true := by
  induction n with
  | zero => exact ⟨s, .refl s, rfl, fun _ _ => rfl, fun p hp => absurd hp (Nat.not_lt_zero p)⟩
  | succ n ih =>
    obtain ⟨s', hreach, hcontext, hsame, hdone⟩ := ih (Nat.le_of_succ_le hn)
    have hrest : ((init criticals).Path n k → ∀ y ∈ s'.txs[n]?, y.isDone = true) →
        ∀ p < n + 1, (init criticals).Path p k → ∀ y ∈ s'.txs[p]?, y.isDone = true := by
      intro hlast p hp hpath
      rcases Nat.lt_succ_iff_lt_or_eq.mp hp with hlt | rfl
      · exact hdone p hlt hpath
      · exact hlast hpath
    have hsame' : ∀ u, ¬((init criticals).Path u k ∧ u < n + 1) → s'.txs[u]? = s.txs[u]? :=
      fun u hu => hsame u fun h => hu ⟨h.1, Nat.lt_succ_of_lt h.2⟩
    by_cases hpath : (init criticals).Path n k
    · have hsame_n := hsame n fun h => absurd h.2 (Nat.lt_irrefl n)
      cases hx : s'.txs[n]? with
      | none =>
        refine ⟨s', hreach, hcontext, hsame', hrest fun _ y hy => ?_⟩
        rw [hx] at hy
        cases hy
      | some x =>
        have hrespects : Respects (init criticals) s' n := fun q hq y hy => hdone q (path_lt hq) (hq.trans hpath) y hy
        have haddresses : x.addresses s'.context = [] := hcontext ▸ hfirst n hn x (hsame_n ▸ hx)
        obtain ⟨s'', hreach', hcontext', hothers, hend⟩ := exists_ended x hx hrespects haddresses
        refine ⟨s'', hreach.trans hreach', hcontext'.trans hcontext, fun u hu => ?_, fun p hp hpk => ?_⟩
        · have hne : u ≠ n := fun h => hu ⟨h ▸ hpath, h ▸ Nat.lt_succ_self n⟩
          exact (hothers u hne).trans (hsame' u hu)
        · by_cases hpn : p = n
          · exact hpn ▸ hend
          · rw [hothers p hpn]
            exact hdone p (by omega) hpk
    · exact ⟨s', hreach, hcontext, hsame', hrest fun h => absurd h hpath⟩

/-- The first transaction that registers a contract can do so while another runs that the graph does not put before it. -/
lemma path_of_scheduleFree (hfree : s.ScheduleFree (init criticals)) {k j : Nat}
    (hfirst : ∀ p < k, ∀ z : TxHandles P R, s.txs[p]? = some z → z.addresses s.context = []) (hx : s.txs[k]? = some x)
    (hy : s.txs[j]? = some y) (hregister : x.addresses s.context ≠ []) (hj : j ≠ k) (hruns : y.isDone = false) :
    (init criticals).Path j k := by
  by_contra hpath
  obtain ⟨s₁, hreach₁, hcontext, hsame, hdone⟩ := exists_prepared criticals hfirst k (le_refl k)
  have hx₁ : s₁.txs[k]? = some x := (hsame k fun h => absurd h.2 (Nat.lt_irrefl k)).trans hx
  have hrespects : Respects (init criticals) s₁ k := fun p hp z hz => hdone p (path_lt hp) hp z hz
  obtain ⟨s₂, hreach₂, hothers, a, ha, hcontract⟩ := exists_registered x hx₁ hrespects (hcontext ▸ hregister)
  obtain ⟨ts, hts, rfl⟩ := hreach₁.trans hreach₂
  refine hcontract (hfree.own ts hts (k, a) ha j hj y ?_ hruns)
  rw [hothers j hj, hsame j fun h => hpath h.1, hy]

lemma registersLast_of_scheduleFree (hfree : s.ScheduleFree (init criticals)) : s.RegistersLast (init criticals) := by
  classical
  intro k j x y hx hy hregister hj hruns
  have hex : ∃ k, ∃ x : TxHandles P R, s.txs[k]? = some x ∧ x.addresses s.context ≠ [] := ⟨k, x, hx, hregister⟩
  obtain ⟨x₀, hx₀, hregister₀⟩ := Nat.find_spec hex
  have hfirst : ∀ p < Nat.find hex, ∀ z : TxHandles P R, s.txs[p]? = some z → z.addresses s.context = [] := by
    intro p hp z hz
    by_contra hne
    exact Nat.find_min hex hp ⟨z, hz, hne⟩
  by_cases hk : k = Nat.find hex
  · exact path_of_scheduleFree hfree (hk ▸ hfirst) hx hy hregister hj hruns
  · -- a second transaction that registers would have to come before the first one
    have hpath := path_of_scheduleFree hfree hfirst hx₀ hx hregister₀ hk (isDone_eq_false hregister)
    exact absurd (Nat.find_min' hex ⟨x, hx, hregister⟩) (Nat.not_le.mpr (path_lt hpath))

end

/-- Handles do not depend on the schedule of a block iff the graph puts all other users of the context before the one that
registers. -/
theorem scheduleFree_iff {T : Type*} [DecidableEq T] (criticals : List (Option (List T))) (context : ContextRegistry P)
    (txs : List (TxHandles P R)) : ScheduleFree (init criticals) { context, txs } ↔
      RegistersLast (init criticals) { context, txs } :=
  ⟨registersLast_of_scheduleFree, scheduleFree_of_registersLast rfl⟩

/-- Two transactions that each create an entry and return its address. -/
def twoEntries : HandleExecution Unit Nat where
  txs := [.registerPrecompiled () .done, .registerPrecompiled () .done]

/-- The second one asks for the address that the first one has got. -/
def entryLookedUp : HandleExecution Unit (Option Unit) where
  txs := [.registerPrecompiled () fun _ => .done none, .getPrecompiled 0x10001 .done]

lemma not_path_apart (p t : Nat) : ¬(init [some [0], some [1]]).Path p t := by
  intro hpath
  obtain ⟨q, hedge, -⟩ := Relation.TransGen.head'_iff.mp hpath
  have hv : (init [some [0], some [1]]).vtxs = [{}, {}] := by decide
  unfold DAG.Edge DAG.outEdges at hedge
  rw [hv] at hedge
  rcases p with _ | _ | p <;> simp at hedge

/-- Transactions with different critical fields: the addresses depend on who comes first, and an address that one
transaction has got is a contract for the other. -/
theorem not_scheduleFree : ¬ScheduleFree (init [some [0], some [1]]) twoEntries ∧
      (run step twoEntries [0, 1]).txs = [.done 0x10001, .done 0x10002] ∧
      (run step twoEntries [1, 0]).txs = [.done 0x10002, .done 0x10001] ∧
      ¬ScheduleFree (init [some [0], some [1]]) entryLookedUp ∧
      (run step entryLookedUp [0, 1]).txs = [.done none, .done (some ())] := by
  refine ⟨fun hfree => ?_, rfl, rfl, fun hfree => ?_, rfl⟩
  · exact not_path_apart 1 0 (registersLast_of_scheduleFree hfree 0 1 _ _ rfl rfl (by decide) (by decide) rfl)
  · exact not_path_apart 1 0 (registersLast_of_scheduleFree hfree 0 1 _ _ rfl rfl (by decide) (by decide) rfl)

end HandleExecution

end FiscoBcos
