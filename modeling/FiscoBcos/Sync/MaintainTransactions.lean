import Mathlib.Data.List.GetD
import Mathlib.Data.List.Induction
import FiscoBcos.Chain.Block

/-!
# Sending the transactions of the pool

`SyncMaster::maintainTransactions` chooses for every new transaction the peers it goes to and marks it as known by them,
and sends afterwards. The random numbers are an input, and the peers get their packets in the order of the list. The part
of the pool that keeps the marks is a parameter.
-/

namespace FiscoBcos

open List Function

def c_maxSendTransactions : Nat := 1000

structure SyncPeerStatus where
  nodeId : NodeID
  isSealer : Bool

/-- What `maintainTransactions` calls of the pool to read and set marks; `σ` is the state behind it. -/
structure KnownByMarks (σ : Type) where
  isTransactionKnownBySomeone : σ → Hash → Bool
  isTransactionKnownBy : σ → Hash → NodeID → Bool
  setTransactionIsKnownBy : σ → Hash → NodeID → σ

/-- A mark is set for the transaction and the node it is set for. -/
def KnownByMarks.Records {σ : Type} (marks : KnownByMarks σ) : Prop :=
  ∀ s t p u q, marks.isTransactionKnownBy (marks.setTransactionIsKnownBy s t p) u q =
    (decide (u = t ∧ q = p) || marks.isTransactionKnownBy s u q)

/-- `TxPool`: the hashes in the queue and what is recorded of them for the synchronisation. -/
structure TxMarks (σ : Type) where
  txsQueue : List Hash
  limit : Nat
  synced : Hash → Bool
  known : σ

def TxMarks.topTransactionsCondition {σ : Type} (pool : TxMarks σ) (limit : Nat) : List Hash × TxMarks σ :=
  let ts := (pool.txsQueue.filter fun t => !pool.synced t).take (min pool.limit limit)
  (ts, { pool with synced := fun t => pool.synced t || ts.contains t })

namespace MaintainTransactions

/-- The loop of `randomSelection` that moves a peer from `allowed` to `chosen`. -/
def choose (rand : Nat → Nat) : Nat → List NodeID → List NodeID
  | 0, _ | _, [] => []
  | i + 1, a :: allowed =>
    let n := rand i % (allowed.length + 1)
    (a :: allowed).getD n a :: choose rand i ((a :: allowed).eraseIdx n)

def randomSelection (peers : List SyncPeerStatus) (rand : Nat → Nat) (percent : Nat) (allow : SyncPeerStatus → Bool) :
    List NodeID :=
  choose rand ((peers.length * percent + 99) / 100) ((peers.filter allow).map SyncPeerStatus.nodeId)

variable {σ : Type} (marks : KnownByMarks σ) (nodeId : NodeID) (peers : List SyncPeerStatus) (rand : Hash → Nat → Nat)

/-- The marks and `peerTransactions` while the first loop runs. -/
structure Marking (σ : Type) where
  known : σ
  peerTransactions : NodeID → List Hash := fun _ => []

def Marking.mark (m : Marking σ) (t : Hash) (chosen : List NodeID) : Marking σ where
  known := chosen.foldl (fun s p => marks.setTransactionIsKnownBy s t p) (marks.setTransactionIsKnownBy m.known t nodeId)
  peerTransactions := fun p => m.peerTransactions p ++ if p ∈ chosen then [t] else []

/-- The peers that may get a transaction: sealers that it is not known by, unless this node has marked it already. -/
def allow (s : σ) (t : Hash) (p : SyncPeerStatus) : Bool :=
  p.isSealer && (!marks.isTransactionKnownBy s t nodeId && !marks.isTransactionKnownBy s t p.nodeId)

def selection (s : σ) (t : Hash) : List NodeID :=
  randomSelection peers (rand t) (if marks.isTransactionKnownBySomeone s t then 25 else 100) (allow marks nodeId s t)

/-- The first loop. The flag says that it returned from the function. -/
def markAll : List Hash → Marking σ → Marking σ × Bool
  | [], m => (m, false)
  | t :: ts, m =>
    match selection marks nodeId peers rand m.known t with
    | [] => (m, true)
    | chosen => markAll ts (m.mark marks nodeId t chosen)

/-- The pool afterwards and the packets. -/
def maintainTransactions (pool : TxMarks σ) : TxMarks σ × List (NodeID × List Hash) :=
  let top := pool.topTransactionsCondition c_maxSendTransactions
  let r := markAll marks nodeId peers rand top.1 { known := pool.known }
  ({ top.2 with known := r.1.known },
    if r.2 then []
    else (peers.map fun p => (p.nodeId, r.1.peerTransactions p.nodeId)).filter fun packet => !packet.2.isEmpty)

/-- What a call marks as known by a peer it sends to that peer. The mark of the node itself is not one of a peer. -/
def MarkedSent (pool : TxMarks σ) : Prop :=
  let r := maintainTransactions marks nodeId peers rand pool
  ∀ t p, p ≠ nodeId → marks.isTransactionKnownBy pool.known t p = false →
    marks.isTransactionKnownBy r.1.known t p = true → ∃ packet ∈ r.2, packet.1 = p ∧ t ∈ packet.2

lemma choose_subset (rand : Nat → Nat) (i : Nat) (allowed : List NodeID) : choose rand i allowed ⊆ allowed := by
  induction i generalizing allowed with
  | zero => simp [choose]
  | succ i ih =>
    cases allowed with
    | nil => simp [choose]
    | cons a allowed =>
      refine cons_subset.mpr ⟨?_, fun p hp => mem_of_mem_eraseIdx (ih _ hp)⟩
      have hlt : rand i % (allowed.length + 1) < (a :: allowed).length := Nat.mod_lt _ (Nat.succ_pos _)
      rw [getD_eq_getElem _ a hlt]
      exact getElem_mem hlt

variable {marks nodeId peers rand} {s : σ} {t : Hash}

lemma mem_selection {p : NodeID} (h : p ∈ selection marks nodeId peers rand s t) :
    ∃ peer ∈ peers, allow marks nodeId s t peer = true ∧ peer.nodeId = p := by
  obtain ⟨peer, hpeer, hid⟩ := mem_map.mp (choose_subset _ _ _ h)
  exact ⟨peer, (mem_filter.mp hpeer).1, (mem_filter.mp hpeer).2, hid⟩

/-- However small the percentage, some peer is chosen if one is allowed. -/
lemma selection_eq_nil_iff :
    selection marks nodeId peers rand s t = [] ↔ ∀ p ∈ peers, allow marks nodeId s t p = false := by
  constructor
  · intro hnil p hp
    by_contra hallow
    have hpos := length_pos_of_mem hp
    have hcount : ∃ i, (peers.length * (if marks.isTransactionKnownBySomeone s t then 25 else 100) + 99) / 100 = i + 1 :=
      Nat.exists_eq_succ_of_ne_zero (by split <;> omega)
    obtain ⟨i, hi⟩ := hcount
    unfold selection randomSelection at hnil
    rw [hi] at hnil
    cases hallowed : (peers.filter (allow marks nodeId s t)).map SyncPeerStatus.nodeId with
    | nil =>
      rw [map_eq_nil_iff, filter_eq_nil_iff] at hallowed
      exact hallowed p hp (by simpa using hallow)
    | cons a l =>
      rw [hallowed] at hnil
      cases hnil
  · intro hnone
    refine eq_nil_iff_forall_not_mem.mpr fun p hp => ?_
    obtain ⟨peer, hpeer, hallow, -⟩ := mem_selection hp
    exact absurd hallow (by simp [hnone peer hpeer])

variable (hrec : marks.Records)

include hrec

lemma known_mark (m : Marking σ) (chosen : List NodeID) (u : Hash) (q : NodeID) :
    marks.isTransactionKnownBy (m.mark marks nodeId t chosen).known u q = true ↔
      u = t ∧ (q = nodeId ∨ q ∈ chosen) ∨ marks.isTransactionKnownBy m.known u q = true := by
  unfold Marking.mark
  induction chosen using reverseRecOn with
  | nil =>
    rw [foldl_nil, hrec, Bool.or_eq_true, decide_eq_true_eq, mem_nil_iff, or_false]
  | append_singleton chosen p ih =>
    rw [foldl_concat, hrec, Bool.or_eq_true, ih, decide_eq_true_eq, mem_append, mem_singleton]
    tauto

/-- The marks of one transaction do not touch another. -/
lemma allow_mark (m : Marking σ) (chosen : List NodeID) {u : Hash} (hu : u ≠ t) :
    allow marks nodeId (m.mark marks nodeId t chosen).known u = allow marks nodeId m.known u := by
  have hsame (q : NodeID) : marks.isTransactionKnownBy (m.mark marks nodeId t chosen).known u q =
      marks.isTransactionKnownBy m.known u q := by
    rw [Bool.eq_iff_iff, known_mark hrec m chosen u q]
    exact or_iff_right fun h => hu h.1
  funext p
  unfold allow
  rw [hsame, hsame]

/-- What is marked is noted down for the second loop. -/
theorem markAll_noted (ts : List Hash) (m : Marking σ) (p : NodeID) (hp : p ≠ nodeId) :
    let r := (markAll marks nodeId peers rand ts m).1
    m.peerTransactions p ⊆ r.peerTransactions p ∧
      ∀ t, marks.isTransactionKnownBy r.known t p = true → marks.isTransactionKnownBy m.known t p = true ∨
        t ∈ r.peerTransactions p ∧ p ∈ peers.map SyncPeerStatus.nodeId := by
  induction ts generalizing m with
  | nil => exact ⟨fun _ h => h, fun t ht => .inl ht⟩
  | cons t ts ih =>
    unfold markAll
    split
    · exact ⟨fun _ h => h, fun t ht => .inl ht⟩
    · obtain ⟨hkept, hnoted⟩ := ih (m.mark marks nodeId t (selection marks nodeId peers rand m.known t))
      refine ⟨fun u hu => hkept (mem_append_left _ hu), fun u hu => (hnoted u hu).elim (fun hbefore => ?_) .inr⟩
      rcases (known_mark hrec m _ u p).mp hbefore with ⟨rfl, hchosen⟩ | hknown
      · have hchosen := hchosen.resolve_left hp
        obtain ⟨peer, hpeer, -, hid⟩ := mem_selection hchosen
        exact .inr ⟨hkept (by simp [Marking.mark, hchosen]), hid ▸ mem_map_of_mem hpeer⟩
      · exact .inl hknown

/-- The loop leaves the function exactly when it meets a transaction that no peer may get. -/
lemma markAll_ends (ts : List Hash) (m : Marking σ) (hnodup : ts.Nodup) :
    (markAll marks nodeId peers rand ts m).2 = false ↔ ∀ t ∈ ts, ∃ p ∈ peers, allow marks nodeId m.known t p = true := by
  induction ts generalizing m with
  | nil => simp [markAll]
  | cons t ts ih =>
    obtain ⟨hnotin, hnodup⟩ := nodup_cons.mp hnodup
    rw [forall_mem_cons]
    unfold markAll
    split
    case h_1 hnone =>
      refine iff_of_false nofun fun h => ?_
      obtain ⟨p, hp, hallow⟩ := h.1
      exact absurd hallow (by simp [selection_eq_nil_iff.mp hnone p hp])
    case h_2 hsome =>
      rw [ih _ hnodup]
      have hfirst : ∃ p ∈ peers, allow marks nodeId m.known t p = true := by
        by_contra hnot
        refine hsome (selection_eq_nil_iff.mpr fun p hp => ?_)
        by_contra hallow
        exact hnot ⟨p, hp, by simpa using hallow⟩
      rw [and_iff_right hfirst]
      refine forall₂_congr fun u hu => ?_
      rw [allow_mark hrec m _ (ne_of_mem_of_not_mem hu hnotin)]

lemma known_markAll (ts : List Hash) (m : Marking σ) {u : Hash} {q : NodeID}
    (h : marks.isTransactionKnownBy m.known u q = true) :
    marks.isTransactionKnownBy (markAll marks nodeId peers rand ts m).1.known u q = true := by
  induction ts generalizing m with
  | nil => exact h
  | cons t ts ih =>
    unfold markAll
    split
    · exact h
    · exact ih _ ((known_mark hrec m _ u q).mpr (.inr h))

variable (nodeId peers rand)

/-- The call sends what it marks exactly when every transaction it takes may go to some peer, or already the first one may
go to none, so that nothing is marked. -/
theorem markedSent_iff (hself : nodeId ∉ peers.map SyncPeerStatus.nodeId) (pool : TxMarks σ)
    (hnodup : pool.txsQueue.Nodup) :
    let ts := (pool.topTransactionsCondition c_maxSendTransactions).1
    MarkedSent marks nodeId peers rand pool ↔
      (∀ t ∈ ts, ∃ p ∈ peers, allow marks nodeId pool.known t p = true) ∨
        ∀ t ∈ ts.head?, ∀ p ∈ peers, allow marks nodeId pool.known t p = false := by
  intro ts
  have hts : ts.Nodup := hnodup.sublist ((take_sublist _ _).trans filter_sublist)
  have hends : (markAll marks nodeId peers rand ts { known := pool.known }).2 = false ↔ _ := markAll_ends hrec ts _ hts
  have hpackets : (maintainTransactions marks nodeId peers rand pool).2 =
      if (markAll marks nodeId peers rand ts { known := pool.known }).2 then [] else _ := rfl
  constructor
  · intro hsent
    by_contra hnot
    rw [not_or, ← hends] at hnot
    obtain ⟨hreturned, hfirst⟩ := hnot
    push Not at hfirst
    obtain ⟨t, ht, p, hp, hallow⟩ := hfirst
    obtain ⟨rest, hrest⟩ : ∃ rest, ts = t :: rest := head?_eq_some_iff.mp ht
    -- the first transaction is marked for some peer, and stays so until the function returns
    obtain ⟨q, hq⟩ : ∃ q, q ∈ selection marks nodeId peers rand pool.known t :=
      exists_mem_of_ne_nil _ fun hnil => hallow (selection_eq_nil_iff.mp hnil p hp)
    obtain ⟨peer, hpeer, hunknown, rfl⟩ := mem_selection hq
    have hmarked : marks.isTransactionKnownBy (markAll marks nodeId peers rand ts { known := pool.known }).1.known t
        peer.nodeId = true := by
      rw [hrest]
      unfold markAll
      split
      case h_1 hnil => exact absurd (hnil ▸ hq) not_mem_nil
      case h_2 => exact known_markAll hrec _ _ ((known_mark hrec _ _ _ _).mpr (.inl ⟨rfl, .inr hq⟩))
    simp only [allow, Bool.and_eq_true, Bool.not_eq_true'] at hunknown
    obtain ⟨packet, hpacket, -⟩ := hsent t peer.nodeId (fun heq => hself (heq ▸ mem_map_of_mem hpeer)) hunknown.2.2 hmarked
    rw [hpackets, if_pos (by simpa using hreturned)] at hpacket
    cases hpacket
  · rintro (hall | hfirst) t p hp hunknown hmarked
    · obtain ⟨htx, hmem⟩ := ((markAll_noted hrec _ _ p hp).2 t hmarked).resolve_left (by simp [hunknown])
      obtain ⟨peer, hpeer, rfl⟩ := mem_map.mp hmem
      refine ⟨(peer.nodeId, _), ?_, rfl, htx⟩
      rw [hpackets, if_neg (by simp [hends.mpr hall])]
      exact mem_filter.mpr ⟨mem_map_of_mem hpeer, by simpa using ne_nil_of_mem htx⟩
    · have hkept : (markAll marks nodeId peers rand ts { known := pool.known }).1.known = pool.known := by
        cases hcase : ts with
        | nil => rfl
        | cons u rest =>
          unfold markAll
          rw [selection_eq_nil_iff.mpr (hfirst u (by rw [hcase]; rfl))]
      have hafter : marks.isTransactionKnownBy pool.known t p = true := hkept ▸ hmarked
      exact absurd hafter (by simp [hunknown])

omit hrec

/-- Marks as a list of pairs. -/
def listMarks : KnownByMarks (List (Hash × NodeID)) where
  isTransactionKnownBySomeone := fun s t => s.any fun q => q.1 == t
  isTransactionKnownBy := fun s t p => s.contains (t, p)
  setTransactionIsKnownBy := fun s t p => (t, p) :: s

lemma records_listMarks : listMarks.Records := by
  intro s t p u q
  simp [listMarks, Prod.ext_iff]

def poolOf (known : List (Hash × NodeID)) : TxMarks (List (Hash × NodeID)) where
  txsQueue := [1, 2]
  limit := 10
  synced := fun _ => false
  known := known

theorem markedSent_of_fresh : MarkedSent listMarks 10 [⟨11, true⟩] (fun _ _ => 0) (poolOf []) ∧
    MarkedSent listMarks 10 [⟨11, true⟩] (fun _ _ => 0) (poolOf [(1, 11)]) := by
  refine ⟨(markedSent_iff 10 [⟨11, true⟩] _ records_listMarks (by decide) (poolOf []) (by decide)).mpr (.inl ?_),
    (markedSent_iff 10 [⟨11, true⟩] _ records_listMarks (by decide) (poolOf [(1, 11)]) (by decide)).mpr (.inr ?_)⟩ <;>
    decide

/-- The second transaction is known by the only peer. The call returns after it has marked the first one, which is not
sent. -/
theorem not_markedSent : ¬MarkedSent listMarks 10 [⟨11, true⟩] (fun _ _ => 0) (poolOf [(2, 11)]) := by
  intro h
  obtain ⟨packet, hpacket, -⟩ := h 1 11 (by decide) (by decide) (by decide)
  exact absurd (length_pos_of_mem hpacket) (by decide)

end MaintainTransactions

end FiscoBcos
