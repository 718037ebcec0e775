import FiscoBcos.Lib.FixedWidth
import FiscoBcos.Lib.Run
import FiscoBcos.Chain.Symbolic
import FiscoBcos.Sync.SyncMaster

/-!
# The queues of block sync

`libsync/RspBlockReq` merges the block requests of a peer before it answers them; `int64_t` arithmetic wraps around. The
queue of downloaded blocks is limited, but only before a packet is added to it.
-/

namespace FiscoBcos

open List Option

open FixedWidth (int64 int64_of_lt)

def c_maxReceivedDownloadRequestPerPeer : Nat := 8

structure DownloadRequest where
  fromNumber : Int
  size : Int
deriving DecidableEq

/-- Whether `a` comes after `b`. -/
def RequestQueueCmp (a b : DownloadRequest) : Bool :=
  if a.fromNumber = b.fromNumber then decide (a.size < b.size) else decide (b.fromNumber < a.fromNumber)

/-- `m_reqQueue`, its top first. -/
abbrev DownloadRequestQueue := List DownloadRequest

namespace DownloadRequestQueue

def push (q : DownloadRequestQueue) (r : DownloadRequest) : DownloadRequestQueue :=
  if c_maxReceivedDownloadRequestPerPeer ≤ q.length then q else q.orderedInsert (fun a b => !RequestQueueCmp a b) r

def merge (fromNumber size : Int) : DownloadRequestQueue → Int × DownloadRequestQueue
  | [] => (size, [])
  | r :: q =>
    if r.fromNumber ≤ int64 (fromNumber + size) then
      merge fromNumber (max size (int64 (int64 (r.fromNumber + r.size) - fromNumber))) q
    else (size, r :: q)

def topAndPop : DownloadRequestQueue → DownloadRequest × DownloadRequestQueue
  | [] => (⟨0, 0⟩, [])
  | r :: q =>
    let m := merge r.fromNumber 0 (r :: q)
    (⟨r.fromNumber, m.1⟩, m.2)

/-- The answers of at most `calls` calls of `topAndPop` while the queue is not empty, and the queue after them. -/
def popAll : Nat → DownloadRequestQueue → List DownloadRequest × DownloadRequestQueue
  | 0, q => ([], q)
  | _ + 1, [] => ([], [])
  | calls + 1, r :: q =>
    let p := topAndPop (r :: q)
    let rest := popAll calls p.2
    (p.1 :: rest.1, rest.2)

section

variable (q : List DownloadRequest)

def covered : Set Int :=
  {x | ∃ r ∈ q, r.fromNumber ≤ x ∧ x < r.fromNumber + r.size}

def Sorted : Prop :=
  q.Pairwise fun a b => a.fromNumber ≤ b.fromNumber

/-- An `int64_t` holds every number of the requests and the length of what is merged. -/
structure Within : Prop where
  size : ∀ r ∈ q, 0 ≤ r.size
  low : ∀ r ∈ q, -2 ^ 63 ≤ r.fromNumber
  high : ∀ r ∈ q, r.fromNumber + r.size < 2 ^ 63
  span : ∀ r ∈ q, ∀ t ∈ q, t.fromNumber + t.size - r.fromNumber < 2 ^ 63

end

variable {q q' : List DownloadRequest}

lemma Within.subset (h : Within q) (hsub : q' ⊆ q) : Within q' where
  size r hr := h.size r (hsub hr)
  low r hr := h.low r (hsub hr)
  high r hr := h.high r (hsub hr)
  span r hr t ht := h.span r (hsub hr) t (hsub ht)

lemma covered_cons (r : DownloadRequest) : covered (r :: q) = covered [r] ∪ covered q := by
  ext x
  simp [covered]

lemma merge_spec (hq : Within q) (hsorted : Sorted q) {f s : Int} (hf : -2 ^ 63 ≤ f) (hs : 0 ≤ s) (hfs : f + s < 2 ^ 63)
    (hle : ∀ r ∈ q, f ≤ r.fromNumber) (hspan : ∀ r ∈ q, r.fromNumber + r.size - f < 2 ^ 63) :
    ∃ size rest, merge f s q = (size, rest) ∧ rest <:+ q ∧ (∀ r ∈ rest, f + size < r.fromNumber) ∧
      covered [⟨f, size⟩] ∪ covered rest = covered [⟨f, s⟩] ∪ covered q := by
  induction q generalizing s with
  | nil => exact ⟨s, [], rfl, suffix_refl _, by simp, rfl⟩
  | cons r q ih =>
    obtain ⟨hfrom, hle⟩ := forall_mem_cons.mp hle
    obtain ⟨hend, hspan⟩ := forall_mem_cons.mp hspan
    have hsize := hq.size r mem_cons_self
    have hhigh := hq.high r mem_cons_self
    unfold merge
    rw [int64_of_lt (by omega) hfs, int64_of_lt (x := r.fromNumber + r.size) (by omega) hhigh, int64_of_lt (by omega) hend]
    split
    case isTrue hmerge =>
      obtain ⟨size, rest, heq, hsuffix, hgap, hcover⟩ := ih (hq.subset (subset_cons_self r q)) hsorted.of_cons
        (s := max s (r.fromNumber + r.size - f)) (by omega) (by omega) hle hspan
      refine ⟨size, rest, heq, hsuffix.trans (suffix_cons r q), hgap, ?_⟩
      rw [hcover, covered_cons r, ← Set.union_assoc]
      congr 1
      ext x
      simp only [covered, Set.mem_ofPred_eq, Set.mem_union, mem_singleton, exists_eq_left]
      omega
    case isFalse hgap =>
      refine ⟨s, r :: q, rfl, suffix_refl _, forall_mem_cons.mpr ⟨by omega, fun t ht => ?_⟩, rfl⟩
      have := rel_of_pairwise_cons hsorted ht
      omega

/-- A call takes at least the first request, so that as many calls as there are requests empty the queue. -/
theorem popAll_spec (hq : Within q) (hsorted : Sorted q) {calls : Nat} (hcalls : q.length ≤ calls) :
    ∃ out, popAll calls q = (out, []) ∧ out.Pairwise (fun a b => a.fromNumber + a.size < b.fromNumber) ∧
      (∀ r ∈ out, ∃ t ∈ q, t.fromNumber = r.fromNumber) ∧ covered out = covered q := by
  induction calls generalizing q with
  | zero =>
    rw [length_eq_zero_iff.mp (Nat.le_zero.mp hcalls)]
    exact ⟨[], rfl, .nil, by simp, rfl⟩
  | succ calls ih =>
    cases q with
    | nil => exact ⟨[], rfl, .nil, by simp, rfl⟩
    | cons r q =>
      have hsize := hq.size r mem_cons_self
      have hlow := hq.low r mem_cons_self
      have hhigh := hq.high r mem_cons_self
      obtain ⟨hown, hspan⟩ := forall_mem_cons.mp (hq.span r mem_cons_self)
      have hfirst : merge r.fromNumber 0 (r :: q) = merge r.fromNumber r.size q := by
        rw [merge, add_zero, int64_of_lt hlow (by omega), if_pos (le_rfl), int64_of_lt (by omega) hhigh,
          int64_of_lt (by omega) hown, show r.fromNumber + r.size - r.fromNumber = r.size by omega, max_eq_right hsize]
      obtain ⟨size, rest, heq, hsuffix, hgap, hcover⟩ := merge_spec (hq.subset (subset_cons_self r q))
        hsorted.of_cons hlow hsize hhigh (fun t ht => rel_of_pairwise_cons hsorted ht) hspan
      obtain ⟨out, hout, hordered, hfrom, hrest⟩ := ih (hq.subset (subset_cons_of_subset r hsuffix.subset))
        (hsorted.of_cons.sublist hsuffix.sublist) (hsuffix.length_le.trans (Nat.le_of_succ_le_succ hcalls))
      refine ⟨⟨r.fromNumber, size⟩ :: out, ?_, pairwise_cons.mpr ⟨fun t ht => ?_, hordered⟩,
        forall_mem_cons.mpr ⟨⟨r, mem_cons_self, rfl⟩, fun t ht => ?_⟩, ?_⟩
      · simp only [popAll, topAndPop, hfirst, heq, hout]
      · obtain ⟨t', ht', hsame⟩ := hfrom t ht
        exact hsame ▸ hgap t' ht'
      · obtain ⟨t', ht', hsame⟩ := hfrom t ht
        exact ⟨t', .tail _ (hsuffix.subset ht'), hsame⟩
      · rw [covered_cons, hrest, hcover]
        exact (covered_cons r).symm

lemma push_perm (hlen : q.length < c_maxReceivedDownloadRequestPerPeer) (hsorted : Sorted q) (r : DownloadRequest) :
    (push q r).Perm (r :: q) ∧ Sorted (push q r) := by
  unfold push
  rw [if_neg (by omega)]
  refine ⟨perm_orderedInsert _ r q, ?_⟩
  clear hlen
  induction q with
  | nil => exact pairwise_singleton _ r
  | cons t q ih =>
    obtain ⟨hfirst, hrest⟩ := pairwise_cons.mp hsorted
    rw [orderedInsert_cons]
    by_cases hcmp : RequestQueueCmp r t
    · have hle : t.fromNumber ≤ r.fromNumber := by grind [RequestQueueCmp]
      rw [if_neg (by simp [hcmp])]
      refine pairwise_cons.mpr ⟨fun a ha => ?_, ih hrest⟩
      rcases (mem_orderedInsert _).mp ha with rfl | ha
      · exact hle
      · exact hfirst a ha
    · have hle : r.fromNumber ≤ t.fromNumber := by grind [RequestQueueCmp]
      rw [if_pos (by simp [hcmp])]
      exact pairwise_cons.mpr ⟨forall_mem_cons.mpr ⟨hle, fun a ha => hle.trans (hfirst a ha)⟩, hsorted⟩

lemma foldl_push {reqs : List DownloadRequest} (hcount : q.length + reqs.length ≤ c_maxReceivedDownloadRequestPerPeer)
    (hsorted : Sorted q) : (reqs.foldl push q).Perm (reqs ++ q) ∧ Sorted (reqs.foldl push q) := by
  induction reqs generalizing q with
  | nil => exact ⟨.refl q, hsorted⟩
  | cons r reqs ih =>
    rw [length_cons] at hcount
    obtain ⟨hperm, hsorted⟩ := push_perm (by omega) hsorted r
    obtain ⟨hall, hsorted⟩ := ih (by rw [hperm.length_eq, length_cons]; omega) hsorted
    exact ⟨hall.trans ((Perm.append_left reqs hperm).trans perm_middle), hsorted⟩

/-- The answers are in increasing order with a gap between any two, and cover exactly what was asked for. -/
theorem popAll_pushed (reqs : List DownloadRequest) (hcount : reqs.length ≤ c_maxReceivedDownloadRequestPerPeer)
    (hreqs : Within reqs) : ∃ out, popAll reqs.length (reqs.foldl push []) = (out, []) ∧
      out.Pairwise (fun a b => a.fromNumber + a.size < b.fromNumber) ∧ covered out = covered reqs := by
  obtain ⟨hperm, hsorted⟩ := foldl_push (q := []) (by simpa using hcount) .nil
  rw [append_nil] at hperm
  obtain ⟨out, hout, hordered, -, hcover⟩ := popAll_spec (hreqs.subset hperm.subset) hsorted hperm.length_eq.le
  refine ⟨out, hout, hordered, hcover.trans ?_⟩
  ext x
  exact exists_congr fun r => and_congr_left fun _ => hperm.mem_iff

theorem popAll_pushed_sample :
    let reqs : List DownloadRequest := [⟨10, 2⟩, ⟨1, 3⟩, ⟨6, 2⟩, ⟨2, 4⟩, ⟨2, 0⟩]
    popAll 5 (reqs.foldl push []) = ([⟨1, 7⟩, ⟨10, 2⟩], []) ∧ covered [⟨1, 7⟩, ⟨10, 2⟩] = covered reqs := by
  obtain ⟨out, hout, -, hcover⟩ := popAll_pushed [⟨10, 2⟩, ⟨1, 3⟩, ⟨6, 2⟩, ⟨2, 4⟩, ⟨2, 0⟩] (by decide)
    ⟨by decide, by decide, by decide, by decide⟩
  have hrun : popAll 5 (foldl push [] [⟨10, 2⟩, ⟨1, 3⟩, ⟨6, 2⟩, ⟨2, 4⟩, ⟨2, 0⟩]) = ([⟨1, 7⟩, ⟨10, 2⟩], []) := by decide
  obtain ⟨rfl, -⟩ := Prod.mk.inj (hrun.symm.trans hout)
  exact ⟨hrun, hcover⟩

/-- Below the number 0 a merged range can be longer than an `int64_t` holds: the second request is lost. -/
theorem not_popAll_pushed :
    let reqs : List DownloadRequest := [⟨-2 ^ 63, 2 ^ 63 - 1⟩, ⟨-1, 2 ^ 62⟩]
    (∀ r ∈ reqs, 0 ≤ r.size ∧ -2 ^ 63 ≤ r.fromNumber ∧ r.fromNumber + r.size < 2 ^ 63) ∧
      popAll 2 (reqs.foldl push []) = ([⟨-2 ^ 63, 2 ^ 63 - 1⟩], []) ∧ covered [⟨-2 ^ 63, 2 ^ 63 - 1⟩] ≠ covered reqs := by
  refine ⟨by decide, by decide, fun hcover => ?_⟩
  have hzero : 0 ∈ covered [⟨-2 ^ 63, 2 ^ 63 - 1⟩, ⟨-1, 2 ^ 62⟩] := ⟨⟨-1, 2 ^ 62⟩, by simp, by decide, by decide⟩
  rw [← hcover] at hzero
  simp [covered] at hzero

end DownloadRequestQueue

namespace DownloadingBlockQueue

def pop (q : DownloadingBlockQueue) : DownloadingBlockQueue :=
  { q with blocks := q.blocks.tail }

/-- A call and the number of the chain at that time. `top` flushes the buffer or changes nothing. -/
inductive Call where
  | push (rlps : List Bytes)
  | clearFullQueueIfNotHas (number : Int)
  | flushBufferToQueue (number : Int)
  | pop
deriving DecidableEq

def step (E : Env) (q : DownloadingBlockQueue) : Call → DownloadingBlockQueue
  | .push rlps => q.push rlps
  | .clearFullQueueIfNotHas number => q.clearFullQueueIfNotHas (number + 1)
  | .flushBufferToQueue number => q.flushBufferToQueue E number
  | .pop => q.pop

/-- `flushBufferToQueue` takes no packet, and the next block is not in the queue. -/
def Jammed (q : DownloadingBlockQueue) (number : Int) : Prop :=
  c_maxDownloadingBlockQueueSize ≤ q.blocks.length ∧ ∀ b ∈ q.blocks.head?, number + 1 < b.header.number

/-- Whether `flushBufferToQueue` takes a coded block into the queue. -/
def newer (E : Env) (number : Int) (bytes : Bytes) : Bool :=
  (E.decodeBlock bytes).any fun b => E.verifySenders b.transactions && isNewerBlock number b

/-- Every packet that `flush` takes finds room for all of its newer blocks, with `size` blocks in the queue before it. -/
def Fits (E : Env) (number : Int) : List (List Bytes) → Nat → Prop
  | [], _ => True
  | blocksShard :: buffer, size =>
    c_maxDownloadingBlockQueueSize ≤ size ∨
      size + blocksShard.countP (newer E number) ≤ c_maxDownloadingBlockQueueSize ∧
        Fits E number buffer (size + blocksShard.countP (newer E number))

variable {E : Env} {q : DownloadingBlockQueue}

lemma length_pushBlocks (number : Int) (rlps : List Bytes) (blocks : List Block) :
    (rlps.foldl (pushBlock E number) blocks).length = blocks.length + rlps.countP (newer E number) := by
  induction rlps generalizing blocks with
  | nil => rfl
  | cons bytes rlps ih =>
    have hone : (pushBlock E number blocks bytes).length = blocks.length + if newer E number bytes then 1 else 0 := by
      unfold pushBlock newer
      cases E.decodeBlock bytes with
      | none => rfl
      | some b =>
        dsimp only [any_some]
        split <;> simp [orderedInsert_length]
    rw [foldl_cons, ih, hone, countP_cons]
    omega

/-- A packet is taken as a whole if there is room for one block, so that the queue keeps to its limit only as long as the
packets fit. -/
theorem length_flush (number : Int) (buffer : List (List Bytes)) (blocks : List Block)
    (hfits : Fits E number buffer blocks.length) (h : blocks.length ≤ c_maxDownloadingBlockQueueSize) :
    (flush E number buffer blocks).length ≤ c_maxDownloadingBlockQueueSize := by
  induction buffer generalizing blocks with
  | nil => exact h
  | cons rlps buffer ih =>
    unfold flush
    split
    case isTrue => exact h
    case isFalse hroom =>
      obtain ⟨hle, hfits⟩ := hfits.resolve_left hroom
      rw [← length_pushBlocks] at hle hfits
      exact ih _ hfits hle

lemma length_step (h : q.blocks.length ≤ c_maxDownloadingBlockQueueSize) (c : Call)
    (hc : ∀ number, c = .flushBufferToQueue number → Fits E number q.buffer q.blocks.length) :
    (q.step E c).blocks.length ≤ c_maxDownloadingBlockQueueSize := by
  cases c with
  | push rlps =>
    change (q.push rlps).blocks.length ≤ _
    unfold push
    split <;> exact h
  | clearFullQueueIfNotHas =>
    change (q.clearFullQueueIfNotHas _).blocks.length ≤ _
    unfold clearFullQueueIfNotHas
    split
    · exact Nat.zero_le _
    · exact h
  | flushBufferToQueue number => exact length_flush number q.buffer q.blocks (hc number rfl) h
  | pop => exact (tail_sublist q.blocks).length_le.trans h

/-- As long as the packets fit, the queue is never more than full, and a full queue without the next block is emptied. -/
theorem never_jammed (E : Env) (calls : List Call)
    (hcalls : Machine.Along (step E) (fun q c => ∀ number, c = .flushBufferToQueue number →
      Fits E number q.buffer q.blocks.length) {} calls) :
    (Machine.run (step E) {} calls).blocks.length ≤ c_maxDownloadingBlockQueueSize ∧
      ∀ number, ¬Jammed ((Machine.run (step E) {} calls).clearFullQueueIfNotHas (number + 1)) number := by
  have hbound := Machine.invariant_run (fun q => q.blocks.length ≤ c_maxDownloadingBlockQueueSize)
    (fun q c hc hq => length_step hq c hc) (Nat.zero_le _) hcalls
  refine ⟨hbound, fun number hjam => ?_⟩
  unfold Jammed clearFullQueueIfNotHas at hjam
  split at hjam
  case isTrue => exact absurd hjam.1 (show ¬c_maxDownloadingBlockQueueSize ≤ 0 by decide)
  case isFalse hkeep => exact hkeep ⟨le_antisymm hbound hjam.1, hjam.2⟩

/-- Packets of blocks of number 2 that reach a node without a block. -/
def packets (sizes : List Nat) : List Call :=
  sizes.map (fun n => .push (replicate n [2, 0, 0, 0, 0])) ++ [.flushBufferToQueue 0]

def filled (sizes : List Nat) : DownloadingBlockQueue :=
  Machine.run (step Symbolic.env) {} (packets sizes)

/-- Two packets fill the queue to its limit, and it is emptied for block 1. -/
theorem never_jammed_filled : (filled [100, 156]).blocks.length = c_maxDownloadingBlockQueueSize ∧
    ¬Jammed ((filled [100, 156]).clearFullQueueIfNotHas 1) 0 := by
  refine ⟨by decide +kernel, (never_jammed Symbolic.env (packets [100, 156]) ⟨nofun, nofun, ?_, trivial⟩).2 0⟩
  rintro _ ⟨⟩
  exact .inr ⟨by decide +kernel, .inr ⟨by decide +kernel, trivial⟩⟩

lemma pushBlocks_replicate {number : Int} {bytes : Bytes} {b : Block} (h : E.decodeBlock bytes = some b)
    (hnew : (E.verifySenders b.transactions && isNewerBlock number b) = true) (m n : Nat) :
    (replicate n bytes).foldl (pushBlock E number) (replicate m b) = replicate (m + n) b := by
  induction n generalizing m with
  | zero => rfl
  | succ n ih =>
    have hone : pushBlock E number (replicate m b) bytes = replicate (m + 1) b := by
      unfold pushBlock
      rw [h]
      dsimp only
      rw [if_pos hnew]
      cases m <;> simp [replicate_succ]
    rw [replicate_succ, foldl_cons, hone, ih, Nat.add_right_comm, add_assoc]

lemma blocks_filled (n : Nat) :
    (filled [n]).blocks = replicate n { header := { number := 2, timestamp := 0, sealer := 0 } } :=
  (pushBlocks_replicate rfl rfl 0 n).trans (by rw [zero_add]; rfl)

lemma jammed_filled {n : Nat} (h : c_maxDownloadingBlockQueueSize < n) :
    Jammed ((filled [n]).clearFullQueueIfNotHas 1) 0 := by
  have hlen : (filled [n]).blocks.length = n := by rw [blocks_filled, length_replicate]
  unfold clearFullQueueIfNotHas
  rw [if_neg fun hclear => by omega]
  refine ⟨by omega, fun b hb => ?_⟩
  rw [blocks_filled] at hb
  rw [eq_of_mem_replicate (mem_of_mem_head? hb)]
  decide

/-- One packet with 257 blocks of number 2 fills the queue beyond its limit, and it stays so. -/
theorem not_never_jammed : c_maxDownloadingBlockQueueSize < (filled [257]).blocks.length ∧
    Jammed ((filled [257]).clearFullQueueIfNotHas 1) 0 := by
  rw [blocks_filled, length_replicate]
  exact ⟨by decide, jammed_filled (by decide)⟩

end DownloadingBlockQueue

end FiscoBcos
