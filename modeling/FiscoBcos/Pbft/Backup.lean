import FiscoBcos.Pbft.CommitLock

/-!
# The backup of the lock

`checkAndCommit` leaves the backup of the lock to a worker and sends the commit request itself. A `Process` is a node in
which the handlers, the worker and crashes interleave.
-/

namespace FiscoBcos

open Machine List Option Reaches

variable {q : CommitReq} {db : Option WireMsg}

def Action.silent : Action → Bool
  | .updateCommittedPrepare _ _ => false
  | .broadcastCommitReq _ _ => false
  | .commitBlock _ _ _ => false
  | .syncBlock _ => false
  | _ => true

/-- What the worker, the disk and the network see of a node: its lock, its chain and the actions it has taken, the
newest first. -/
structure Visible where
  lock : PrepareReq
  chain : BlockChain
  done : List Action

namespace Visible

def perform (E : Env) (v : Visible) (x : Action) : Visible :=
  match x with
  | .updateCommittedPrepare _ raw => { v with lock := raw, done := x :: v.done }
  | .commitBlock _ b _ => { v with chain := (v.chain.commitBlock E b).2, done := x :: v.done }
  | .syncBlock b => { v with chain := (v.chain.commitBlock E b).2, done := x :: v.done }
  | _ => { v with done := x :: v.done }

def Locks (r : PrepareReq) (q : CommitReq) (o : Option PrepareReq) : Prop :=
  r.height = q.height ∧ sameProposal (some r) o = true

/-- What the handlers observe with every action: a new lock holds the node to all the commit requests that are not yet
settled by a block, and a commit request follows the backup of its lock. -/
structure Allowed (v : Visible) (x : Action) : Prop where
  lock : ∀ t raw, x = .updateCommittedPrepare t raw → raw.idx ≤ MAXIDX ∧
    ∀ q o, .broadcastCommitReq q o ∈ v.done → q.height ≤ v.chain.number ∨ Locks raw q o
  commit : ∀ q o, x = .broadcastCommitReq q o →
    (∃ t rest, v.done = .enqueueBackup :: .updateCommittedPrepare t v.lock :: rest) ∧
      q.height ≤ v.chain.number + 1 ∧ Locks v.lock q o

variable {E : Env} {v : Visible} {x : Action}

lemma perform_done (E : Env) (v : Visible) (x : Action) : (v.perform E x).done = x :: v.done := by
  cases x <;> rfl

lemma number_le_perform : v.chain.number ≤ (v.perform E x).chain.number := by
  cases x with
  | commitBlock t b r | syncBlock b => exact BlockChain.number_le_commitBlock E v.chain b
  | _ => exact le_rfl

lemma run_done (E : Env) (v : Visible) (l : List Action) : (run (perform E) v l).done = l.reverse ++ v.done := by
  induction l generalizing v with
  | nil => rfl
  | cons x l ih =>
    rw [show run (perform E) v (x :: l) = run (perform E) (v.perform E x) l from rfl,
      ih, perform_done, reverse_cons, append_assoc]
    rfl

lemma allowed_of_ne (hlock : ∀ t raw, x ≠ .updateCommittedPrepare t raw)
    (hcommit : ∀ q o, x ≠ .broadcastCommitReq q o) : Allowed v x :=
  ⟨fun t raw h => absurd h (hlock t raw), fun q o h => absurd h (hcommit q o)⟩

lemma reaches_note (h : x.silent = true) : Reaches (perform E) Allowed v { v with done := x :: v.done } := by
  have hperform : v.perform E x = { v with done := x :: v.done } := by
    cases x <;> first | rfl | cases h
  rw [← hperform]
  refine single (allowed_of_ne ?_ ?_)
  · rintro t raw rfl
    cases h
  · rintro q o rfl
    cases h

end Visible

namespace PBFTEngine

open Visible

def visible (s : PBFTEngine) : Visible where
  lock := s.reqCache.committedPrepareCache
  chain := s.blockChain
  done := s.log

structure Decodable (s : PBFTEngine) : Prop where
  nodeNum : s.nodeNum ≤ MAXIDX
  raw : s.reqCache.rawPrepareCache.idx ≤ MAXIDX

structure Sound (E : Env) (s : PBFTEngine) : Prop where
  prepared : Prepared E s
  heights : Heights s
  locked : Locked s
  decodable : Decodable s

variable {E : Env} {amb : Ambient} {s₀ a b : PBFTEngine} {e : Event}

variable {s : PBFTEngine} {r : PrepareReq}

lemma ValidPrepare.idx_le (h : ValidPrepare E s r) (hs : s.nodeNum ≤ MAXIDX) : r.idx ≤ MAXIDX := by
  have hleader := h.leader
  unfold getLeader at hleader
  split at hleader
  · cases hleader
  rename_i hnode
  have hne : s.nodeNum ≠ 0 := by
    intro h0
    simp [h0] at hnode
  have hlt := Int.emod_lt_of_pos (s.view + s.highestBlock.number) (show (0 : Int) < s.nodeNum by omega)
  have hidx := some.inj hleader
  omega

lemma resetConfig_nodeNum_le (amb : Ambient) (hs : s.nodeNum ≤ MAXIDX) : (s.resetConfig amb).nodeNum ≤ MAXIDX := by
  have hmod : ∀ n : Nat, n % (MAXIDX + 1) ≤ MAXIDX := fun n =>
    Nat.lt_succ_iff.mp (Nat.mod_lt n (Nat.succ_pos _))
  unfold resetConfig resetConsensusTimeout
  dsimp only
  split
  · exact hs
  · split <;> exact hmod _

lemma reportBlockWithoutLock_nodeNum_le (E : Env) (amb : Ambient) (bl : Block)
    (hs : s.nodeNum ≤ MAXIDX) : (s.reportBlockWithoutLock E amb bl).nodeNum ≤ MAXIDX := by
  unfold reportBlockWithoutLock
  dsimp only
  split
  · refine resetConfig_nodeNum_le amb ?_
    split <;> exact hs
  · exact hs

lemma start_nodeNum_le {cfg : NodeConfig} {backup : Option WireMsg} : (start E amb cfg backup).nodeNum ≤ MAXIDX := by
  unfold start initPBFTEnv
  split <;> exact reportBlockWithoutLock_nodeNum_le E amb _ (Nat.zero_le _)

variable {o : Option PrepareReq}

lemma sameProposal_congr {p p' : PrepareReq} (h : p.blockHash = p'.blockHash) :
    sameProposal (some p) o = sameProposal (some p') o := by
  cases o with
  | none => rfl
  | some _ => exact congrArg (· == _) h

lemma Locked.newLock {x : PrepareReq} (hs : Locked s) (hx : s.reqCache.proposal = some x)
    (hq : .broadcastCommitReq q o ∈ s.log) : q.height < x.height ∨ Locks s.reqCache.rawPrepareCache q o := by
  obtain ⟨hle, hsame⟩ := hs.prepared q o x hq hx
  obtain ⟨hheight, hhash⟩ := hs.raw x hx
  rcases hle.lt_or_eq with hlt | heq
  · exact .inl hlt
  · have hx' := hsame heq
    exact .inr ⟨hheight.trans heq.symm, (sameProposal_congr hhash).trans hx'⟩

lemma reaches_lockAndVote (hs : Sound E s) (hview : s.reqCache.prepareCache.view = s.view) (hmax : s.view ≠ MAXVIEW) :
    Reaches (perform E) Allowed s.visible (s.lockAndVote E amb).visible := by
  obtain ⟨x, hx⟩ := ne_none_iff_exists'.mp (hs.prepared.proposal_ne_none hview hmax)
  obtain ⟨hheight, hhash⟩ := hs.locked.raw x hx
  have hle : x.height ≤ s.blockChain.number + 1 := by
    have h1 := hs.locked.proposal_le x hx
    have h2 := hs.heights.consensus
    have h3 := hs.heights.reported
    omega
  have hown : (s.ownVote E amb.commitStamp).height = x.height := hs.prepared.height x hx
  have hvisible : run (perform E) s.visible
      [.updateCommittedPrepare s.signTally s.reqCache.rawPrepareCache, .enqueueBackup,
        .broadcastCommitReq (s.ownVote E amb.commitStamp) s.reqCache.proposal] =
      (s.lockAndVote E amb).visible := by
    rfl
  refine ⟨_, ?_, hvisible⟩
  refine ⟨⟨fun t raw h => ?_, fun q o h => (nomatch h)⟩, allowed_of_ne (by simp) (by simp),
    ⟨fun t raw h => (nomatch h), fun q o h => ?_⟩, trivial⟩
  · injection h with _ hraw
    subst hraw
    refine ⟨hs.decodable.raw, fun q o hq => ?_⟩
    rcases hs.locked.newLock hx hq with hlt | hlocks
    · refine .inl ?_
      change q.height ≤ s.blockChain.number
      omega
    · exact .inr hlocks
  · injection h with hq ho
    subst hq ho
    refine ⟨⟨s.signTally, s.log, rfl⟩, ?_, ?_⟩
    · change (s.ownVote E amb.commitStamp).height ≤ s.blockChain.number + 1
      omega
    · rw [hx]
      exact ⟨hheight.trans hown.symm, (sameProposal_congr hhash).trans (beq_self_eq_true _)⟩

lemma Sound.withSigns (hs : Sound E s) (m : ReqMap) : Sound E (s.withSigns m) :=
  ⟨hs.prepared.congr rfl rfl, hs.heights.of_frame (frame_withSigns s m),
    hs.locked.quiet le_rfl rfl (.inr ⟨rfl, rfl⟩) ⟨[], rfl, by simp⟩,
    ⟨hs.decodable.nodeNum, hs.decodable.raw⟩⟩

lemma reaches_countAndVote (hs : Sound E s) (hmax : s.view ≠ MAXVIEW) :
    Reaches (perform E) Allowed s.visible (s.countAndVote E amb).visible := by
  obtain ⟨m, -, hc | ⟨hview, -, hc⟩⟩ := countAndVote_cases
  · rw [hc]
    exact refl _
  · have hvisible : (s.withSigns m).visible = s.visible := rfl
    rw [hc, ← hvisible]
    exact reaches_lockAndVote (hs.withSigns m) hview hmax

lemma Decodable.countAndVote (hs : Decodable s) : Decodable (s.countAndVote E amb) := by
  have hframe : Frame s (s.countAndVote E amb) := frame_countAndVote
  refine ⟨hframe.nodeNum ▸ hs.nodeNum, ?_⟩
  obtain ⟨m, -, hc | ⟨-, -, hc⟩⟩ := countAndVote_cases
  · rw [hc]
    exact hs.raw
  · rw [hc, lockAndVote_reqCache]
    exact hs.raw

lemma reaches_checkAndSave (s : PBFTEngine) : Reaches (perform E) Allowed s.visible (s.checkAndSave E).visible ∧
      (s.checkAndSave E).reqCache.rawPrepareCache = s.reqCache.rawPrepareCache := by
  obtain ⟨m, m', -, -, hc | ⟨bl, -, -, -, -, hc⟩⟩ := checkAndSave_cases E s
  · rw [hc]
    exact ⟨refl _, rfl⟩
  have hcache : (s.checkAndSave E).reqCache.committedPrepareCache = s.reqCache.committedPrepareCache ∧
      (s.checkAndSave E).reqCache.rawPrepareCache = s.reqCache.rawPrepareCache := by
    rw [hc]
    rcases saveBlock_reqCache with hdel | hkeep
    · rw [hdel, delCache_eq]
      exact ⟨rfl, rfl⟩
    · rw [hkeep]
      exact ⟨rfl, rfl⟩
  refine ⟨?_, hcache.2⟩
  have hvisible : ∃ t b r, (s.checkAndSave E).visible = s.visible.perform E (.commitBlock t b r) := by
    unfold visible
    rw [hcache.1, hc, saveBlock_eq]
    exact ⟨_, _, _, rfl⟩
  obtain ⟨t, b, r, hv⟩ := hvisible
  rw [hv]
  exact single (allowed_of_ne (by simp) (by simp))

section

variable {full : Bool} {bl result : Block} {context : Bool} (ha : Sound E a) (hsafe : LockSafe E s₀ (e, amb))
  (hready : Ready s₀ a) (ho : Origin E amb s₀ e r) (hv : s₀.isValidPrepare E amb r = .VALID)
  (hexec : Execution E amb s₀ r bl result context)

include ha hsafe hready ho hv hexec

lemma Sound.prepareFor : Sound E (a.prepareFor E amb full r bl result context) := by
  have hframe : Frame a (a.prepareFor E amb full r bl result context) := frame_prepareFor a full r bl result context
  refine ⟨prepared_prepareFor, ha.heights.of_frame hframe,
    ha.locked.prepareFor hsafe hready ho hv hexec, hframe.nodeNum.le.trans ha.decodable.nodeNum, ?_⟩
  rw [prepareFor_reqCache]
  rw [congrArg PBFTMsg.idx executedRaw_toPBFTMsg]
  exact (validPrepare_of_isValidPrepare hv).idx_le (hready.frame.nodeNum ▸ ha.decodable.nodeNum)

lemma reaches_prepareFor : Decodable ((a.prepareFor E amb full r bl result context).countAndVote E amb) ∧
    Reaches (perform E) Allowed a.visible ((a.prepareFor E amb full r bl result context).countAndVote E amb).visible := by
  have hs : Sound E (a.prepareFor E amb full r bl result context) := ha.prepareFor hsafe hready ho hv hexec
  have hframe : Frame a (a.prepareFor E amb full r bl result context) := frame_prepareFor a full r bl result context
  have hmax : (a.prepareFor E amb full r bl result context).view ≠ MAXVIEW := by
    rw [hframe.view, hready.frame.view]
    exact hsafe.view
  have hvoted : Reaches (perform E) Allowed a.visible (a.prepareFor E amb full r bl result context).visible := by
    unfold visible
    rw [prepareFor_log, prepareFor_reqCache, hframe.blockChain]
    exact (reaches_note (x := .execBlock r bl) rfl).trans (reaches_note rfl)
  exact ⟨hs.decodable.countAndVote, hvoted.trans (reaches_countAndVote hs hmax)⟩

end

lemma reaches_smallStep (hsafe : LockSafe E s₀ (e, amb)) (h : SmallStep E amb s₀ e a b) (ha : Sound E a) :
    Decodable b ∧ Reaches (perform E) Allowed a.visible b.visible := by
  have hvalid : ∀ r, s₀.isValidPrepare E amb r = .VALID → Ready s₀ a → r.idx ≤ MAXIDX := by
    intro r hv hready
    exact (validPrepare_of_isValidPrepare hv).idx_le (hready.frame.nodeNum ▸ ha.decodable.nodeNum)
  have hquiet : ∀ t : PBFTEngine, t.nodeNum ≤ MAXIDX → t.reqCache.rawPrepareCache.idx ≤ MAXIDX → t.visible = a.visible →
      Decodable t ∧ Reaches (perform E) Allowed a.visible t.visible := by
    intro t hnum hraw hvisible
    rw [hvisible]
    exact ⟨⟨hnum, hraw⟩, refl _⟩
  have hnote : ∀ (t : PBFTEngine) (x : Action), t.nodeNum ≤ MAXIDX → t.reqCache.rawPrepareCache.idx ≤ MAXIDX →
      x.silent = true → t.visible = { a.visible with done := x :: a.log } →
      Decodable t ∧ Reaches (perform E) Allowed a.visible t.visible := by
    intro t x hnum hraw hsilent hvisible
    rw [hvisible]
    exact ⟨⟨hnum, hraw⟩, reaches_note hsilent⟩
  have hnum := ha.decodable.nodeNum
  have hraw := ha.decodable.raw
  cases h with
  | propose req | sendViewChange req => exact hnote _ _ hnum hraw rfl rfl
  | accept full req ho hv hready =>
    refine hquiet _ ((frame_accept a full req).nodeNum.le.trans hnum) ?_ ?_
    · rw [accept_reqCache]
      exact hvalid req hv hready
    · unfold visible
      rw [accept_reqCache]
      rfl
  | execute full req bl result ho hv hready =>
    have hframe := (frame_accept a full req).trans (frame_noteExecution _ req bl result)
    refine hnote _ (.execBlock req bl) (hframe.nodeNum.le.trans hnum) ?_ rfl ?_
    · rw [noteExecution_accept_reqCache]
      rw [congrArg PBFTMsg.idx executedRaw_toPBFTMsg]
      exact hvalid req hv hready
    · unfold visible
      rw [noteExecution_accept_reqCache, accept_reqCache]
      rfl
  | prepare full req bl result context ho hv hready hfull hexec =>
    exact reaches_prepareFor ha hsafe hready ho hv hexec
  | signVote p req hs =>
    subst hs
    have hadd : Sound E { a with reqCache := a.reqCache.addSignReq req } :=
      ⟨ha.prepared.congr rfl rfl, ha.heights.of_frame frame_reqCache,
        ha.locked.quiet le_rfl rfl (.inr ⟨rfl, rfl⟩) ⟨[], rfl, by simp⟩, ⟨hnum, hraw⟩⟩
    exact ⟨hadd.decodable.countAndVote, reaches_countAndVote hadd hsafe.view⟩
  | save =>
    obtain ⟨hreach, hsame⟩ := reaches_checkAndSave (E := E) a
    exact ⟨⟨(frame_checkAndSave (E := E) a).nodeNum.le.trans hnum, hsame ▸ hraw⟩, hreach⟩
  | viewChangeVote =>
    obtain ⟨⟨_, _, hv⟩, -⟩ := PBFTReqCache.onlyViewChanges_addViewChangeReq a.reqCache
    rw [hv]
    exact hquiet _ hnum hraw rfl
  | changeView => exact hnote _ _ hnum le_rfl rfl rfl
  | report bl =>
    have hnum' := reportBlockWithoutLock_nodeNum_le E amb bl hnum
    rcases reportBlockWithoutLock_cases with ⟨hr, -⟩ | ⟨_, -, -, ⟨-, hr⟩ | ⟨-, hr⟩⟩
    · rw [hr]
      exact hnote _ _ hnum hraw rfl rfl
    · rw [hr, reportNew, delCache_eq] at hnum' ⊢
      exact hnote _ _ hnum' hraw rfl rfl
    · rw [hr, reportAgain, delCache_eq] at hnum' ⊢
      exact hnote _ _ hnum' hraw rfl rfl
  | reset =>
    have hnum' := resetConfig_nodeNum_le amb hnum
    obtain ⟨_, hr, -⟩ := resetConfig_cases amb a
    rw [hr] at hnum' ⊢
    exact hquiet _ hnum' hraw rfl
  | sync bl =>
    unfold syncBlock
    dsimp only
    split
    · exact ⟨⟨hnum, hraw⟩, single (e := .syncBlock bl) (allowed_of_ne (by simp) (by simp))⟩
    · exact ⟨⟨hnum, hraw⟩, refl _⟩
  | _ => exact hquiet _ hnum hraw rfl

lemma sound_step {e : Event × Ambient} (hsafe : LockSafe E s e) (hs : Sound E s) : Sound E (s.step E e) ∧
      Reaches (perform E) Allowed s.visible (s.step E e).visible := by
  refine invariant_step (fun t => Sound E t ∧ Reaches (perform E) Allowed s.visible t.visible) ?_ ⟨hs, refl _⟩
  intro a b h ⟨ha, hreach⟩
  obtain ⟨hdecodable, hreach'⟩ := reaches_smallStep hsafe h ha
  exact ⟨⟨prepared_smallStep h ha.prepared, heights_smallStep h ha.heights,
    locked_smallStep hsafe h ha.prepared ha.locked, hdecodable⟩, hreach.trans hreach'⟩

end PBFTEngine

/-- A running node. The effects of the last handler wait in their order. The pool has one worker, which reads the lock
and then writes what it has read. -/
structure Process extends Visible where
  engine : PBFTEngine
  effects : List Action := []
  tasks : Nat := 0
  encoded : Option WireMsg := none
  db : Option WireMsg

inductive Process.Event where
  | handle (e : PBFTEngine.Event × Ambient)
  | perform
  | committedPrepareBytes
  | backupMsg
  | restart (amb : Ambient)

namespace Process

open PBFTEngine Visible

section

variable (E : Env) (cfg : NodeConfig)

/-- A node that starts on what it finds on its disk. The log goes on, to remember what the node has sent before. -/
def boot (amb : Ambient) (chain : BlockChain) (db : Option WireMsg) (done : List Action) : Process :=
  let s := start E amb { cfg with blockChain := chain } db
  { engine := { s with log := s.log ++ done }
    lock := s.reqCache.committedPrepareCache
    chain := chain
    done := s.log ++ done
    db := db }

def step (p : Process) : Process.Event → Process
  | .handle e =>
    if p.effects = [] then
      let s := p.engine.step E e
      { p with
        engine := s
        effects := (s.log.take (s.log.length - p.engine.log.length)).reverse }
    else p
  | .perform =>
    match p.effects with
    | [] => p
    | x :: xs =>
      { p with
        toVisible := p.toVisible.perform E x
        effects := xs
        tasks := if x = .enqueueBackup then p.tasks + 1 else p.tasks }
  | .committedPrepareBytes =>
    if 0 < p.tasks ∧ p.encoded = none then
      { p with tasks := p.tasks - 1, encoded := some p.lock.toWire.narrow }
    else p
  | .backupMsg =>
    match p.encoded with
    | none => p
    | some w => { p with encoded := none, db := some w }
  | .restart amb => boot E cfg amb p.chain p.db p.done

/-- Every commit request that has left the node and is not settled by a block of its chain is backed by the database:
what `reloadMsg` finds there, and what a restart locks the node on, is its proposal. -/
def LockDurable (p : Process) : Prop :=
  ∀ q o, .broadcastCommitReq q o ∈ p.done → p.chain.number < q.height → ∃ r, reloadMsg p.db = some r ∧ Locks r q o ∧
      ∀ amb, (p.step E cfg (.restart amb)).engine.reqCache.committedPrepareCache = r

end

def leaving (p : Process) : Bool :=
  match p.effects with
  | .broadcastCommitReq _ _ :: _ => true
  | _ => false

/-- What makes the backup safe: the events keep the lock, a commit request leaves only when the worker has nothing left to
write, and the height of a lock that the worker encodes has at most 32 bits. -/
def BackupSafe (E : Env) (p : Process) : Process.Event → Prop
  | .handle e => p.effects = [] → LockSafe E p.engine e
  | .perform => p.leaving = true → p.tasks = 0 ∧ p.encoded = none
  | .committedPrepareBytes => 0 < p.tasks → p.encoded = none → 0 ≤ p.lock.height ∧ p.lock.height < 2 ^ 32
  | _ => True

def Backs (db : Option WireMsg) (q : CommitReq) (o : Option PrepareReq) : Prop :=
  ∃ r, reloadMsg db = some r ∧ Locks r q o

/-- What `reloadMsg` finds has the height and the hash of the request. -/
def Stores (db : Option WireMsg) (r : PrepareReq) : Prop :=
  ∃ r', reloadMsg db = some r' ∧ r'.height = r.height ∧ r'.blockHash = r.blockHash

structure Durable (E : Env) (p : Process) : Prop where
  sound : Sound E p.engine
  allowed : Along (perform E) Allowed p.toVisible p.effects
  engine : run (perform E) p.toVisible p.effects = p.engine.visible
  idx : p.lock.idx ≤ MAXIDX
  height : ∀ q o, .broadcastCommitReq q o ∈ p.done → q.height ≤ p.chain.number + 1
  backed : ∀ q o, .broadcastCommitReq q o ∈ p.done → p.chain.number < q.height →
    Locks p.lock q o ∧ (∀ w, p.encoded = some w → Backs (some w) q o) ∧ Backs p.db q o
  written : ∀ t rest, p.done = .enqueueBackup :: .updateCommittedPrepare t p.lock :: rest →
    0 < p.tasks ∨ Stores (p.encoded.or p.db) p.lock

variable {E : Env} {cfg : NodeConfig} {p : Process}

variable {r : PrepareReq} {o : Option PrepareReq}

lemma stores_narrow (hidx : r.idx ≤ MAXIDX) (hheight : 0 ≤ r.height ∧ r.height < 2 ^ 32) :
    Stores (some r.toWire.narrow) r := by
  let m : PBFTMsg :=
    { height := r.height % 2 ^ 32, view := r.view % 2 ^ 32, idx := r.idx, timestamp := r.timestamp
      blockHash := r.blockHash, sig := r.sig, sig2 := r.sig2 }
  have hmsg : r.toWire.narrow.toMsg = some m := if_pos hidx
  have hload : reloadMsg (some r.toWire.narrow) = some { toPBFTMsg := m, block := r.block } := by
    unfold reloadMsg
    rw [bind_some, hmsg]
    rfl
  exact ⟨_, hload, Int.emod_eq_of_lt hheight.1 hheight.2, rfl⟩

lemma Stores.backs (hstores : Stores db r) (h : Locks r q o) : Backs db q o := by
  obtain ⟨r', hr', hheight, hhash⟩ := hstores
  exact ⟨r', hr', hheight.trans h.1, (sameProposal_congr hhash).trans h.2⟩

lemma reloadMsg_idx : ((reloadMsg db).getD {}).idx ≤ MAXIDX := by
  cases h : reloadMsg db with
  | none => exact le_rfl
  | some =>
    obtain ⟨w, -, hw⟩ := bind_eq_some_iff.mp h
    obtain ⟨m, hm, hr⟩ := bind_eq_some_iff.mp hw
    obtain ⟨bytes, -, rfl⟩ := map_eq_some_iff.mp hr
    obtain ⟨hidx, rfl⟩ := WireMsg.toMsg_eq hm
    exact hidx

lemma handle_effects {s : PBFTEngine} {l : List Action} (h : s.log = l.reverse ++ p.engine.log) :
    (s.log.take (s.log.length - p.engine.log.length)).reverse = l := by
  rw [h, length_append, Nat.add_sub_cancel, take_left, reverse_reverse]

lemma durable_handle {e : PBFTEngine.Event × Ambient} (hp : Durable E p)
    (hsafe : BackupSafe E p (.handle e)) : Durable E (p.step E cfg (.handle e)) := by
  unfold step
  dsimp only
  split
  · rename_i hnil
    have hengine : p.toVisible = p.engine.visible := by
      have h := hp.engine
      rw [hnil] at h
      exact h
    obtain ⟨hsound, l, hl, hrun⟩ := sound_step (hsafe hnil) hp.sound
    have hdone := run_done E p.engine.visible l
    rw [hrun] at hdone
    have heffects := handle_effects hdone
    refine ⟨hsound, ?_, ?_, hp.idx, hp.height, hp.backed, hp.written⟩
    · dsimp only
      rw [heffects, hengine]
      exact hl
    · dsimp only
      rw [heffects, hengine]
      exact hrun
  · exact hp

lemma Durable.commit (hp : Durable E p) (hallowed : p.toVisible.Allowed (.broadcastCommitReq q o))
    (htasks : p.tasks = 0) (hencoded : p.encoded = none) : Locks p.lock q o ∧ Backs p.db q o := by
  obtain ⟨⟨t, rest, hdone⟩, -, hlocks⟩ := hallowed.commit q o rfl
  refine ⟨hlocks, ?_⟩
  rcases hp.written t rest hdone with hpos | hstores
  · omega
  · rw [hencoded, none_or] at hstores
    exact hstores.backs hlocks

lemma durable_perform (hp : Durable E p) (hsafe : BackupSafe E p .perform) : Durable E (p.step E cfg .perform) := by
  unfold step
  cases heffects : p.effects with
  | nil => exact hp
  | cons x =>
    have hallowed := hp.allowed
    have hengine := hp.engine
    rw [heffects] at hallowed hengine
    obtain ⟨hx, hxs⟩ := hallowed
    have hmem : ∀ q o, .broadcastCommitReq q o ∈ (p.toVisible.perform E x).done →
        x = .broadcastCommitReq q o ∨ .broadcastCommitReq q o ∈ p.done := by
      intro q o h
      rw [perform_done] at h
      exact (mem_cons.mp h).imp_left Eq.symm
    have hnumber : p.chain.number ≤ (p.toVisible.perform E x).chain.number := number_le_perform
    have hlock : (∃ t, x = .updateCommittedPrepare t (p.toVisible.perform E x).lock) ∨
        (p.toVisible.perform E x).lock = p.lock := by
      cases x <;> first | exact .inr rfl | exact .inl ⟨_, rfl⟩
    refine ⟨hp.sound, hxs, hengine, ?_, fun q o hq => ?_, fun q o hq hlt => ?_, fun t rest hdone => ?_⟩
    · rcases hlock with ⟨t, ht⟩ | hsame
      · exact (hx.lock t _ ht).1
      · dsimp only
        rw [hsame]
        exact hp.idx
    · dsimp only at hq ⊢
      rcases hmem q o hq with rfl | hold
      · exact (hx.commit q o rfl).2.1
      · have := hp.height q o hold
        omega
    · dsimp only at hq hlt ⊢
      have hopen : p.chain.number < q.height := by omega
      rcases hmem q o hq with rfl | hold
      · obtain ⟨htasks, hencoded⟩ := hsafe (by rw [leaving, heffects])
        obtain ⟨hlocks, hbacks⟩ := hp.commit hx htasks hencoded
        refine ⟨hlocks, fun w hw => ?_, hbacks⟩
        cases hencoded.symm.trans hw
      obtain ⟨hlocks, hencoded, hbacks⟩ := hp.backed q o hold hopen
      refine ⟨?_, hencoded, hbacks⟩
      rcases hlock with ⟨t, ht⟩ | hsame
      · rcases (hx.lock t _ ht).2 q o hold with hle | hnew
        · exact absurd hopen (not_lt.mpr hle)
        · exact hnew
      · rw [hsame]
        exact hlocks
    · dsimp only at hdone ⊢
      rw [perform_done] at hdone
      injection hdone with hfirst
      rw [if_pos hfirst]
      exact .inl (Nat.succ_pos _)

lemma durable_committedPrepareBytes (hp : Durable E p) (hsafe : BackupSafe E p .committedPrepareBytes) :
    Durable E (p.step E cfg .committedPrepareBytes) := by
  unfold step
  dsimp only
  split
  case isTrue hbusy =>
    have hstores : Stores (some p.lock.toWire.narrow) p.lock := stores_narrow hp.idx (hsafe hbusy.1 hbusy.2)
    refine ⟨hp.sound, hp.allowed, hp.engine, hp.idx, hp.height, fun q o hq hlt => ?_, fun _ _ _ => .inr hstores⟩
    obtain ⟨hlocks, -, hbacks⟩ := hp.backed q o hq hlt
    refine ⟨hlocks, fun w hw => ?_, hbacks⟩
    cases hw
    exact hstores.backs hlocks
  case isFalse => exact hp

lemma durable_backupMsg (hp : Durable E p) : Durable E (p.step E cfg .backupMsg) := by
  unfold step
  cases hencoded : p.encoded with
  | none => exact hp
  | some w =>
    refine ⟨hp.sound, hp.allowed, hp.engine, hp.idx, hp.height, fun q o hq hlt => ?_, fun t rest hdone => ?_⟩
    · obtain ⟨hlocks, hwritten, -⟩ := hp.backed q o hq hlt
      exact ⟨hlocks, fun w' hw' => (nomatch hw'), hwritten w hencoded⟩
    rcases hp.written t rest hdone with hpos | hstores
    · exact .inl hpos
    · rw [hencoded] at hstores
      exact .inr hstores

lemma exists_of_sameProposal (h : sameProposal (some r) o = true) : ∃ x, o = some x ∧ r.blockHash = x.blockHash := by
  cases o with
  | none => cases h
  | some x => exact ⟨x, rfl, beq_iff_eq.mp h⟩

lemma durable_boot (E : Env) (cfg : NodeConfig) (amb : Ambient) {chain : BlockChain} {done : List Action}
    (hkept : done.Pairwise fun newer older => ∀ v ∈ newer.vote, ∀ q o,
      older = .broadcastCommitReq q o → v.1.height = q.height → sameProposal v.2 o = true)
    (hheight : ∀ q o, .broadcastCommitReq q o ∈ done → q.height ≤ chain.number + 1)
    (hbacked : ∀ q o, .broadcastCommitReq q o ∈ done → chain.number < q.height → Backs db q o) :
    Durable E (boot E cfg amb chain db done) := by
  let s := start E amb { cfg with blockChain := chain } db
  have hfresh : Fresh s := fresh_start E amb { cfg with blockChain := chain } db
  have hlock : s.reqCache.committedPrepareCache = (reloadMsg db).getD {} :=
    start_committedPrepareCache E amb { cfg with blockChain := chain } db
  obtain ⟨hchain, hcons⟩ := start_blockChain E amb { cfg with blockChain := chain } db
  have hlog : s.log ++ done = .reportBlock chain.number :: done := by
    rw [start_log E amb { cfg with blockChain := chain } db]
    rfl
  have hmem : ∀ q o, .broadcastCommitReq q o ∈ s.log ++ done → .broadcastCommitReq q o ∈ done := by
    intro q o h
    rw [hlog] at h
    simpa using h
  have hlocks : ∀ q o, .broadcastCommitReq q o ∈ s.log ++ done → chain.number < q.height →
      Locks s.reqCache.committedPrepareCache q o := by
    intro q o h hlt
    obtain ⟨r, hr, hrq⟩ := hbacked q o (hmem q o h) hlt
    rw [hlock, hr]
    exact hrq
  have hheights := heights_start E amb { cfg with blockChain := chain } db
  refine ⟨⟨hfresh.prepared.congr rfl rfl, ⟨hheights.1, hheights.2, hheights.3⟩, ?_, ?_⟩, trivial, ?_, ?_, ?_, ?_, ?_⟩
  · refine ⟨fun x hx => ?_, fun x hx => ?_, fun q o h => ?_, fun q o x _ hx => ?_, ?_⟩
    · cases hfresh.proposal.symm.trans hx
    · cases hfresh.proposal.symm.trans hx
    · have hle := hheight q o (hmem q o h)
      by_cases hlt : chain.number < q.height
      · obtain ⟨hsame, hprop⟩ := hlocks q o h hlt
        exact .inr ⟨(show q.height = chain.number + 1 by omega).trans hcons.symm, hsame, exists_of_sameProposal hprop⟩
      · exact .inl ((show q.height < chain.number + 1 by omega).trans_eq hcons.symm)
    · cases hfresh.proposal.symm.trans hx
    · change (s.log ++ done).Pairwise _
      rw [hlog, pairwise_cons]
      exact ⟨fun y _ v hv => (nomatch hv), hkept⟩
  · exact ⟨start_nodeNum_le, hfresh.rawPrepareCache.symm ▸ le_rfl⟩
  · change (⟨_, chain, _⟩ : Visible) = ⟨_, s.blockChain, _⟩
    rw [hchain]
    rfl
  · change s.reqCache.committedPrepareCache.idx ≤ MAXIDX
    rw [hlock]
    exact reloadMsg_idx
  · exact fun q o h => hheight q o (hmem q o h)
  · exact fun q o h hlt => ⟨hlocks q o h hlt, fun w hw => (nomatch hw), hbacked q o (hmem q o h) hlt⟩
  · intro t rest hdone
    cases hlog.symm.trans hdone

lemma durable_restart (amb : Ambient) (hp : Durable E p) : Durable E (p.step E cfg (.restart amb)) := by
  have hdone := run_done E p.toVisible p.effects
  rw [hp.engine] at hdone
  have hkept := hp.sound.locked.kept
  rw [show p.engine.log = p.effects.reverse ++ p.done from hdone, pairwise_append] at hkept
  exact durable_boot E cfg amb hkept.2.1 hp.height fun q o hq hlt => (hp.backed q o hq hlt).2.2

lemma durable_step (p : Process) (ev : Process.Event) (hsafe : BackupSafe E p ev)
    (hp : Durable E p) : Durable E (p.step E cfg ev) := by
  cases ev with
  | handle => exact durable_handle hp hsafe
  | perform => exact durable_perform hp hsafe
  | committedPrepareBytes => exact durable_committedPrepareBytes hp hsafe
  | backupMsg => exact durable_backupMsg hp
  | restart amb => exact durable_restart amb hp

/-- In every run of a node all of whose steps are `BackupSafe`, with crashes at any point, the database holds the lock
of every commit request that has left the node and is not settled by a block. -/
theorem lockDurable_of_backupSafe (E : Env) (cfg : NodeConfig) (amb : Ambient) (db : Option WireMsg)
    (evs : List Process.Event)
    (hsafe : Along (step E cfg) (BackupSafe E) (boot E cfg amb cfg.blockChain db []) evs) :
    LockDurable E cfg (run (step E cfg) (boot E cfg amb cfg.blockChain db []) evs) := by
  have hstart : Durable E (boot E cfg amb cfg.blockChain db []) :=
    durable_boot E cfg amb List.Pairwise.nil (fun q o h => (nomatch h)) fun q o h => (nomatch h)
  have hp := invariant_run (Durable E) durable_step hstart hsafe
  intro q o hq hlt
  obtain ⟨r, hr, hlocks⟩ := (hp.backed q o hq hlt).2.2
  refine ⟨r, hr, hlocks, fun amb' => ?_⟩
  refine (start_committedPrepareCache E amb' _ _).trans ?_
  rw [hr]
  rfl

end Process

namespace Symbolic

open PBFTEngine

def config : NodeConfig where
  keyPair := 12
  blockChain := chain

def process : Process :=
  Process.boot env config ambient chain none []

def locking : List Process.Event :=
  [.handle (propose false (block 5)), .perform, .perform,
    .handle (voteFor .SignReqPacket 0 (block 5) 1), .handle (voteFor .SignReqPacket 2 (block 5) 1),
    .perform, .perform]

def unsettled (p : Process) : List CommitReq :=
  p.done.filterMap fun
    | .broadcastCommitReq q _ => if p.chain.number < q.height then some q else none
    | _ => none

/-- The commit request leaves, and the node crashes before the worker has come to the backup. -/
theorem not_lockDurable_of_late_backup : ¬Process.LockDurable env config
      (run (Process.step env config) process (locking ++ [.perform, .restart ambient])) := by
  intro h
  have hopen : unsettled (run (Process.step env config) process (locking ++ [.perform, .restart ambient])) ≠ [] := by
    decide +kernel
  obtain ⟨q, hq⟩ := exists_mem_of_ne_nil _ hopen
  obtain ⟨x, hx, hsome⟩ := mem_filterMap.mp hq
  cases x with
  | broadcastCommitReq q' o =>
    dsimp only at hsome
    split at hsome
    · rename_i hlt
      obtain ⟨r, hr, -⟩ := h q' o hx hlt
      cases hr
    · cases hsome
  | _ => cases hsome

lemma backupSafe_deliver {p : Process} {kind : PacketType} {w : WireMsg} (hview : p.engine.view ≠ MAXVIEW) :
    Process.BackupSafe env p (.handle (deliver kind false w)) :=
  fun _ => lockSafe_deliver hview

lemma backupSafe_perform {p : Process}
    (h : p.leaving = true → p.tasks = 0 ∧ p.encoded = none) : Process.BackupSafe env p .perform :=
  h

theorem lockDurable_of_backupSafe_of_round : unsettled (run (Process.step env config) process
        (locking ++ [.committedPrepareBytes, .backupMsg, .perform, .restart ambient])) ≠ [] ∧
      Process.LockDurable env config (run (Process.step env config) process
          (locking ++ [.committedPrepareBytes, .backupMsg, .perform, .restart ambient])) :=
  ⟨by decide +kernel, Process.lockDurable_of_backupSafe env config ambient none _
      ⟨backupSafe_deliver (by decide +kernel), backupSafe_perform (by decide +kernel),
        backupSafe_perform (by decide +kernel), backupSafe_deliver (by decide +kernel),
        backupSafe_deliver (by decide +kernel), backupSafe_perform (by decide +kernel),
        backupSafe_perform (by decide +kernel), fun _ _ => by decide +kernel, trivial,
        backupSafe_perform (by decide +kernel), trivial, trivial⟩⟩

end Symbolic

end FiscoBcos
