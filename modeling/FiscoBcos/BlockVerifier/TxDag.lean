import Mathlib.Data.List.Basic
import Mathlib.Logic.Relation

/-!
# The transaction graph

`libblockverifier/DAG.cpp` and `TxDAG::init`. A transaction either conflicts with every other one (`none`: normal) or has a
list of critical fields, of any type `T`. `INVALID_ID` is `none`.
-/

namespace FiscoBcos

open List Option Nat

variable {id : Nat}

structure Vertex where
  inDegree : Nat := 0
  outEdge : List Nat := []
deriving DecidableEq

structure DAG where
  vtxs : List Vertex := []
  topLevel : List Nat := []
  totalVtxs : Nat := 0
  totalConsume : Nat := 0
deriving DecidableEq

namespace DAG

def init (maxSize : Nat) (d : DAG) : DAG :=
  { d with vtxs := replicate maxSize {}, totalVtxs := maxSize, totalConsume := 0 }

/-- With one end outside of the graph the C++ has no defined result. -/
def addEdge (f t : Nat) (d : DAG) : DAG :=
  if d.vtxs.length ≤ f ∧ d.vtxs.length ≤ t then d
  else
    let vtxs := d.vtxs.modify f fun v => { v with outEdge := v.outEdge ++ [t] }
    { d with vtxs := vtxs.modify t fun v => { v with inDegree := v.inDegree + 1 } }

variable (d : DAG)

def generate : DAG :=
  { d with topLevel := d.topLevel ++ (range d.vtxs.length).filter fun id =>
      d.vtxs[id]?.any fun v => v.inDegree = 0 }

def outEdges (f : Nat) : List Nat :=
  (d.vtxs[f]?.map Vertex.outEdge).getD []

def inDegree (t : Nat) : Nat :=
  (d.vtxs[t]?.map Vertex.inDegree).getD 0

def Edge (f t : Nat) : Prop :=
  t ∈ d.outEdges f

instance (d : DAG) (f t : Nat) : Decidable (d.Edge f t) :=
  inferInstanceAs (Decidable (t ∈ d.outEdges f))

def Path : Nat → Nat → Prop :=
  Relation.TransGen d.Edge

end DAG

/-- Who held each field last, and the last transaction that held all of them. The map is unordered here: the edges into
one vertex may be added in any order. -/
structure CriticalField (T : Type*) where
  criticals : List (T × Nat) := []
  criticalAll : Option Nat := none

namespace CriticalField

variable {T : Type*} [DecidableEq T]

def get (l : CriticalField T) (c : T) : Option Nat :=
  match l.criticals.lookup c with
  | some id => some id
  | none => l.criticalAll

def update (c : T) (id : Nat) (l : CriticalField T) : CriticalField T :=
  { l with criticals := (c, id) :: l.criticals.filter fun e => e.1 ≠ c }

def foreachField (l : CriticalField T) : List Nat :=
  l.criticals.map Prod.snd ++ l.criticalAll.toList

def setCriticalAll (id : Nat) (_ : CriticalField T) : CriticalField T where
  criticals := []
  criticalAll := some id

end CriticalField

namespace TxDAG

variable {T : Type*} [DecidableEq T]

/-- One round of the loop of `TxDAG::init`. -/
def addTx (s : DAG × CriticalField T) (tx : Option (List T) × Nat) : DAG × CriticalField T :=
  match tx with
  | (some criticals, id) =>
    (criticals.foldl (fun d c =>
        match s.2.get c with
        | some pId => d.addEdge pId id
        | none => d) s.1,
      criticals.foldl (fun l c => l.update c id) s.2)
  | (none, id) =>
    (s.2.foreachField.foldl (fun d pId => d.addEdge pId id) s.1, s.2.setCriticalAll id)

def init (txsCriticals : List (Option (List T))) : DAG :=
  (txsCriticals.zipIdx.foldl addTx (DAG.init txsCriticals.length {}, {})).1.generate

end TxDAG

section

variable {d : DAG} {f t : Nat}

lemma DAG.addEdge_length : (d.addEdge f t).vtxs.length = d.vtxs.length := by
  unfold addEdge
  split <;> simp

lemma DAG.outEdges_addEdge (hf : f < d.vtxs.length) (a : Nat) :
    (d.addEdge f t).outEdges a = if a = f then d.outEdges f ++ [t] else d.outEdges a := by
  unfold outEdges addEdge
  rw [if_neg (by omega)]
  simp only [getElem?_modify]
  by_cases ha : a = f
  · subst ha
    rw [if_pos rfl, getElem?_eq_getElem hf]
    by_cases hta : t = a
    · simp [hta]
    · simp [hta]
  · rw [if_neg ha]
    cases hv : d.vtxs[a]? with
    | none => simp
    | some => by_cases hta : t = a <;> simp [hta, Ne.symm ha]

lemma DAG.edge_foldl_addEdge {ps : List Nat} (hps : ∀ p ∈ ps, p < d.vtxs.length) {a b : Nat} :
    (ps.foldl (fun d p => d.addEdge p t) d).Edge a b ↔ d.Edge a b ∨ a ∈ ps ∧ b = t := by
  induction ps generalizing d with
  | nil => simp
  | cons p ps ih =>
    rw [foldl_cons, ih (fun q hq => by
      rw [addEdge_length]
      exact hps q (mem_cons_of_mem p hq))]
    unfold Edge
    rw [outEdges_addEdge (hps p mem_cons_self)]
    by_cases ha : a = p
    · subst ha
      simp
      tauto
    · simp only [ha, if_false, mem_cons, false_or]

lemma DAG.foldl_addEdge_length (ps : List Nat) :
    (ps.foldl (fun d p => d.addEdge p t) d).vtxs.length = d.vtxs.length := by
  induction ps generalizing d with
  | nil => rfl
  | cons p ps ih => rw [foldl_cons, ih, addEdge_length]

lemma DAG.not_edge_init (n a b : Nat) : ¬(init n {}).Edge a b := by
  simp only [Edge, outEdges, init, getElem?_replicate]
  split <;> simp

end

section Conflicts

variable {T : Type*} [DecidableEq T]

def Conflict : Option (List T) → Option (List T) → Prop
  | some criticals, some criticals' => ∃ c ∈ criticals, c ∈ criticals'
  | _, _ => True

namespace CriticalField

lemma lookup_filter_ne (l : List (T × Nat)) {c c' : T} (h : c' ≠ c) :
    (l.filter fun e => e.1 ≠ c).lookup c' = l.lookup c' := by
  induction l with
  | nil => rfl
  | cons e l ih =>
    by_cases he : e.1 = c
    · have hne : (c' == e.1) = false := by simp [he, h]
      rw [filter_cons_of_neg (by simpa using he), ih, lookup_cons, hne]
    · rw [filter_cons_of_pos (by simpa using he), lookup_cons, lookup_cons, ih]

lemma get_update (l : CriticalField T) (c c' : T) (id : Nat) :
    (l.update c id).get c' = if c' = c then some id else l.get c' := by
  unfold get update
  by_cases h : c' = c
  · simp [h]
  · simp only [lookup_cons, beq_false_of_ne h, lookup_filter_ne _ h, if_neg h]

lemma get_foldl_update (l : CriticalField T) (cs : List T) (c : T) (id : Nat) :
    (cs.foldl (fun l c => l.update c id) l).get c = if c ∈ cs then some id else l.get c := by
  induction cs generalizing l with
  | nil => simp
  | cons c' cs ih =>
    rw [foldl_cons, ih, get_update]
    by_cases hc : c ∈ cs <;> by_cases hc' : c = c' <;> simp [hc, hc']

lemma criticalAll_foldl_update {l : CriticalField T} {cs : List T} :
    (cs.foldl (fun l c => l.update c id) l).criticalAll = l.criticalAll := by
  induction cs generalizing l with
  | nil => rfl
  | cons c cs ih => rw [foldl_cons, ih]; rfl

lemma mem_foreachField_of_get {l : CriticalField T} {c : T} (h : l.get c = some id) : id ∈ l.foreachField := by
  unfold get at h
  rw [foreachField, mem_append]
  split at h
  case h_1 id' hlookup =>
    cases h
    left
    obtain ⟨l₁, l₂, heq, -⟩ := lookup_eq_some_iff.mp hlookup
    rw [heq]
    simp
  case h_2 =>
    right
    rw [h]
    simp

lemma forall_foreachField_foldl_update {P : Nat → Prop} {l : CriticalField T} {cs : List T}
    (hl : ∀ p ∈ l.foreachField, P p) (hid : cs ≠ [] → P id) :
    ∀ p ∈ (cs.foldl (fun l c => l.update c id) l).foreachField, P p := by
  induction cs generalizing l with
  | nil => exact hl
  | cons c cs ih =>
    apply ih
    · intro p hp
      simp only [foreachField, update, map_cons, cons_append, mem_cons, mem_append] at hp
      rcases hp with rfl | hp | hp
      · exact hid (cons_ne_nil c cs)
      · obtain ⟨e, he, rfl⟩ := mem_map.mp hp
        exact hl _ (mem_append_left _ (mem_map_of_mem (mem_filter.mp he).1))
      · exact hl _ (mem_append_right _ hp)
    · intro _
      exact hid (cons_ne_nil c cs)

end CriticalField

namespace TxDAG

open Relation

variable {txs : List (Option (List T))} {k : Nat} {s : DAG × CriticalField T}

def preds (l : CriticalField T) : Option (List T) → List Nat
  | some criticals => criticals.filterMap l.get
  | none => l.foreachField

lemma addTx_fst (s : DAG × CriticalField T) (tx : Option (List T)) (id : Nat) :
    (addTx s (tx, id)).1 = (preds s.2 tx).foldl (fun d p => d.addEdge p id) s.1 := by
  cases tx with
  | none => rfl
  | some =>
    rw [preds, foldl_filterMap]
    simp only [addTx]
    congr 1
    funext d c
    cases s.2.get c <;> rfl

open CriticalField

lemma mem_foreachField_of_mem_preds {l : CriticalField T} {tx : Option (List T)} {p : Nat}
    (h : p ∈ preds l tx) : p ∈ l.foreachField := by
  cases tx with
  | none => exact h
  | some =>
    obtain ⟨c, -, hc⟩ := mem_filterMap.mp h
    exact mem_foreachField_of_get hc

/-- The first `k` transactions are in the graph: the conflicts among them are ordered, and from each of them there is a
way to who holds its fields now. Transactions with an empty list take no part. -/
structure Ordered (txs : List (Option (List T))) (k : Nat) (s : DAG × CriticalField T) : Prop where
  size : s.1.vtxs.length = txs.length
  up : ∀ f t, s.1.Edge f t → f < t ∧ t < k
  nonempty : ∀ f t, s.1.Edge f t → txs[f]? ≠ some (some []) ∧ txs[t]? ≠ some (some [])
  holders : ∀ p ∈ s.2.foreachField, p < k ∧ txs[p]? ≠ some (some [])
  normal : ∀ i < k, txs[i]? = some none → (∃ a, s.2.criticalAll = some a ∧ ReflTransGen s.1.Edge i a) ∧
      ∀ c h, s.2.get c = some h → ReflTransGen s.1.Edge i h
  parallel : ∀ i < k, ∀ cs, txs[i]? = some (some cs) → ∀ c ∈ cs, ∃ h, s.2.get c = some h ∧ ReflTransGen s.1.Edge i h
  paths : ∀ i j, i < j → j < k → ∀ a b, txs[i]? = some a → txs[j]? = some b → Conflict a b →
    a ≠ some [] → b ≠ some [] → TransGen s.1.Edge i j

lemma Ordered.edge_addTx (h : Ordered txs k s) (hk : k < txs.length) (tx : Option (List T))
    (a b : Nat) : (addTx s (tx, k)).1.Edge a b ↔ s.1.Edge a b ∨ a ∈ preds s.2 tx ∧ b = k := by
  rw [addTx_fst]
  apply DAG.edge_foldl_addEdge
  intro p hp
  rw [h.size]
  exact Nat.lt_trans (h.holders p (mem_foreachField_of_mem_preds hp)).1 hk

lemma Ordered.reach_new (h : Ordered txs k s) {tx : Option (List T)} (hk : txs[k]? = some tx)
    {i : Nat} (hi : i < k) {a : Option (List T)} (ha : txs[i]? = some a) (hconflict : Conflict a tx)
    (hempty : a ≠ some []) (hempty' : tx ≠ some []) : ∃ p ∈ preds s.2 tx, ReflTransGen s.1.Edge i p := by
  cases a with
  | none =>
    obtain ⟨⟨all, hall, hreach⟩, hget⟩ := h.normal i hi ha
    cases tx with
    | none => exact ⟨all, by simp [preds, foreachField, hall], hreach⟩
    | some cs =>
      cases cs with
      | nil => exact absurd rfl hempty'
      | cons c =>
        have hsome : ∃ p, s.2.get c = some p := by
          unfold CriticalField.get
          split
          · exact ⟨_, rfl⟩
          · exact ⟨all, hall⟩
        obtain ⟨p, hp⟩ := hsome
        exact ⟨p, mem_filterMap.mpr ⟨c, mem_cons_self, hp⟩, hget c p hp⟩
  | some cs =>
    cases tx with
    | none =>
      cases cs with
      | nil => exact absurd rfl hempty
      | cons c =>
        obtain ⟨p, hp, hreach⟩ := h.parallel i hi _ ha c mem_cons_self
        exact ⟨p, mem_foreachField_of_get hp, hreach⟩
    | some =>
      obtain ⟨c, hc, hc'⟩ := hconflict
      obtain ⟨p, hp, hreach⟩ := h.parallel i hi _ ha c hc
      exact ⟨p, mem_filterMap.mpr ⟨c, hc', hp⟩, hreach⟩

lemma ordered_init : Ordered txs 0 (DAG.init txs.length {}, {}) where
  size := by simp [DAG.init]
  up f t h := absurd h (DAG.not_edge_init _ f t)
  nonempty f t h := absurd h (DAG.not_edge_init _ f t)
  holders p hp := by simp [foreachField] at hp
  normal i hi := by omega
  parallel i hi := by omega
  paths i j _ hj := by omega

section

variable {tx : Option (List T)} (h : Ordered txs k s) (htx : txs[k]? = some tx)
include h htx

open TxDAG

open ReflTransGen

lemma Ordered.reach_addTx {a b : Nat} (hab : ReflTransGen s.1.Edge a b) :
    ReflTransGen (addTx s (tx, k)).1.Edge a b := by
  have hk : k < txs.length := (List.getElem?_eq_some_iff.mp htx).1
  exact mono (fun a b hab => (h.edge_addTx hk tx a b).mpr (.inl hab)) a b hab

lemma Ordered.path_addTx {i : Nat} (hi : i < k) {a : Option (List T)} (ha : txs[i]? = some a)
    (hconflict : Conflict a tx) (hempty : a ≠ some []) (hempty' : tx ≠ some []) :
    TransGen (addTx s (tx, k)).1.Edge i k := by
  have hk : k < txs.length := (List.getElem?_eq_some_iff.mp htx).1
  obtain ⟨p, hp, hreach⟩ := h.reach_new htx hi ha hconflict hempty hempty'
  exact TransGen.tail' (h.reach_addTx htx hreach) ((h.edge_addTx hk tx p k).mpr (.inr ⟨hp, rfl⟩))

lemma Ordered.holders_addTx : ∀ p ∈ (addTx s (tx, k)).2.foreachField, p < k + 1 ∧ txs[p]? ≠ some (some []) := by
  have hold : ∀ p ∈ s.2.foreachField, p < k + 1 ∧ txs[p]? ≠ some (some []) := fun p hp =>
    ⟨lt_succ_of_lt (h.holders p hp).1, (h.holders p hp).2⟩
  cases tx with
  | none =>
    intro p hp
    simp only [addTx, setCriticalAll, foreachField, map_nil,
      toList_some, nil_append, mem_singleton] at hp
    rw [hp, htx]
    exact ⟨lt_succ_self k, by simp⟩
  | some =>
    apply forall_foreachField_foldl_update hold
    intro hcs
    rw [htx]
    exact ⟨lt_succ_self k, by simpa using hcs⟩

lemma Ordered.normal_addTx (i : Nat) (hi : i < k + 1) (hi' : txs[i]? = some none) :
    (∃ all, (addTx s (tx, k)).2.criticalAll = some all ∧ ReflTransGen (addTx s (tx, k)).1.Edge i all) ∧
      ∀ c p, (addTx s (tx, k)).2.get c = some p → ReflTransGen (addTx s (tx, k)).1.Edge i p := by
  cases tx with
  | none =>
    have hreach : ReflTransGen (addTx s (none, k)).1.Edge i k := by
      rcases Nat.lt_succ_iff_lt_or_eq.mp hi with hlt | rfl
      · exact (h.path_addTx htx hlt hi' trivial (by simp) (by simp)).to_reflTransGen
      · exact refl
    refine ⟨⟨k, rfl, hreach⟩, fun c p hp => ?_⟩
    cases some_inj.mp hp
    exact hreach
  | some =>
    have hlt : i < k := by
      rcases Nat.lt_succ_iff_lt_or_eq.mp hi with hlt | rfl
      · exact hlt
      · cases htx.symm.trans hi'
    obtain ⟨⟨all, hall, hreach⟩, hget⟩ := h.normal i hlt hi'
    refine ⟨⟨all, (criticalAll_foldl_update).trans hall, h.reach_addTx htx hreach⟩, fun c p hp => ?_⟩
    rw [addTx, get_foldl_update] at hp
    split at hp
    case isTrue hc =>
      cases hp
      exact (h.path_addTx htx hlt hi' trivial (by simp) (by rintro ⟨⟩; cases hc)).to_reflTransGen
    case isFalse => exact h.reach_addTx htx (hget c p hp)

lemma Ordered.parallel_addTx (i : Nat) (hi : i < k + 1) (cs' : List T) (hi' : txs[i]? = some (some cs'))
    (c : T) (hc : c ∈ cs') : ∃ p, (addTx s (tx, k)).2.get c = some p ∧ ReflTransGen (addTx s (tx, k)).1.Edge i p := by
  have hne : some cs' ≠ some [] := by
    rintro ⟨⟩
    cases hc
  cases tx with
  | none =>
    have hlt : i < k := by
      rcases Nat.lt_succ_iff_lt_or_eq.mp hi with hlt | rfl
      · exact hlt
      · cases htx.symm.trans hi'
    exact ⟨k, rfl, (h.path_addTx htx hlt hi' trivial hne (by simp)).to_reflTransGen⟩
  | some cs =>
    by_cases hcs : c ∈ cs
    · refine ⟨k, ?_, ?_⟩
      · rw [addTx, get_foldl_update, if_pos hcs]
      · rcases Nat.lt_succ_iff_lt_or_eq.mp hi with hlt | rfl
        · exact (h.path_addTx htx hlt hi' ⟨c, hc, hcs⟩ hne (by rintro ⟨⟩; cases hcs)).to_reflTransGen
        · exact refl
    · rcases Nat.lt_succ_iff_lt_or_eq.mp hi with hlt | rfl
      · obtain ⟨p, hp, hreach⟩ := h.parallel i hlt cs' hi' c hc
        refine ⟨p, ?_, h.reach_addTx htx hreach⟩
        rw [addTx, get_foldl_update, if_neg hcs, hp]
      · cases htx.symm.trans hi'
        exact absurd hc hcs

lemma Ordered.addTx : Ordered txs (k + 1) (addTx s (tx, k)) := by
  have hk : k < txs.length := (List.getElem?_eq_some_iff.mp htx).1
  have hedge := h.edge_addTx hk tx
  have hpreds : tx = some [] → preds s.2 tx = [] := by
    rintro rfl
    rfl
  constructor
  case size => rw [addTx_fst, DAG.foldl_addEdge_length, h.size]
  case up =>
    intro f t hft
    rcases (hedge f t).mp hft with hold | ⟨hp, rfl⟩
    · exact ⟨(h.up f t hold).1, lt_succ_of_lt (h.up f t hold).2⟩
    · exact ⟨(h.holders f (mem_foreachField_of_mem_preds hp)).1, lt_succ_self t⟩
  case nonempty =>
    intro f t hft
    rcases (hedge f t).mp hft with hold | ⟨hp, rfl⟩
    · exact h.nonempty f t hold
    · refine ⟨(h.holders f (mem_foreachField_of_mem_preds hp)).2, fun hempty => ?_⟩
      rw [hpreds (some_inj.mp (htx.symm.trans hempty))] at hp
      cases hp
  case holders => exact h.holders_addTx htx
  case normal => exact h.normal_addTx htx
  case parallel => exact h.parallel_addTx htx
  case paths =>
    intro i j hij hj a b ha hb hconflict hempty hempty'
    rcases Nat.lt_succ_iff_lt_or_eq.mp hj with hlt | rfl
    · exact TransGen.mono (fun a b hab => (hedge a b).mpr (.inl hab)) i j
        (h.paths i j hij hlt a b ha hb hconflict hempty hempty')
    · cases some_inj.mp (htx.symm.trans hb)
      exact h.path_addTx htx hij ha hconflict hempty hempty'

end

lemma ordered_take (txs : List (Option (List T))) (hk : k ≤ txs.length) :
    Ordered txs k ((txs.take k).zipIdx.foldl addTx (DAG.init txs.length {}, {})) := by
  induction k with
  | zero => exact ordered_init
  | succ k ih =>
    rw [take_succ_eq_append_getElem hk, zipIdx_append, foldl_append]
    simp only [length_take, Nat.zero_add, zipIdx_singleton, foldl_cons, foldl_nil,
      Nat.min_eq_left (Nat.le_of_succ_le hk)]
    exact (ih (Nat.le_of_succ_le hk)).addTx (getElem?_eq_getElem hk)

/-- The edges go up, and all conflicts are ordered exactly if no transaction with an empty list is in a block with a
normal one: it conflicts with it, but no edge touches it. -/
theorem conflicts_ordered_iff (txs : List (Option (List T))) : (∀ f t, (init txs).Edge f t → f < t) ∧
      ((∀ i j, i < j → ∀ a b, txs[i]? = some a → txs[j]? = some b → Conflict a b →
          (init txs).Path i j) ↔ (none ∈ txs → some [] ∉ txs)) := by
  have h := ordered_take txs (Nat.le_refl txs.length)
  rw [take_length] at h
  refine ⟨fun f t hft => (h.up f t hft).1, fun hall hnone hempty => ?_, fun hcond => ?_⟩
  · -- the two are at different places; the last and the first edge of a path touch both ends
    obtain ⟨i, hi⟩ := mem_iff_getElem?.mp hnone
    obtain ⟨j, hj⟩ := mem_iff_getElem?.mp hempty
    rcases Nat.lt_trichotomy i j with hij | rfl | hji
    · obtain ⟨p, -, hedge⟩ := TransGen.tail'_iff.mp (hall i j hij _ _ hi hj trivial)
      exact (h.nonempty p j hedge).2 hj
    · cases hi.symm.trans hj
    · obtain ⟨p, hedge, -⟩ := TransGen.head'_iff.mp (hall j i hji _ _ hj hi trivial)
      exact (h.nonempty j p hedge).1 hj
  · intro i j hij a b ha hb hconflict
    have hj : j < txs.length := (List.getElem?_eq_some_iff.mp hb).1
    apply h.paths i j hij hj a b ha hb hconflict
    · rintro rfl
      cases b with
      | none => exact hcond (mem_of_getElem? hb) (mem_of_getElem? ha)
      | some =>
        obtain ⟨c, hc, -⟩ := hconflict
        cases hc
    · rintro rfl
      cases a with
      | none => exact hcond (mem_of_getElem? ha) (mem_of_getElem? hb)
      | some =>
        obtain ⟨c, -, hc⟩ := hconflict
        cases hc

/-- A transaction without critical fields is not ordered before the normal one that follows it. -/
theorem not_conflicts_ordered : Conflict (some []) (none : Option (List Nat)) ∧
      ¬(init [some [], (none : Option (List Nat))]).Path 0 1 := by
  refine ⟨trivial, fun hpath => ?_⟩
  obtain ⟨p, hedge, -⟩ := TransGen.head'_iff.mp hpath
  cases hedge

end TxDAG

end Conflicts

end FiscoBcos
