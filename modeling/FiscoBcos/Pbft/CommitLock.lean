import FiscoBcos.Pbft.Basics

/-!
# The commit lock

`updateCommittedPrepare` keeps the raw prepare the node is about to vote to commit, and
`isValidPrepare` refuses other proposals of that height, unless they are flagged as empty.
-/

namespace FiscoBcos

open List Machine

def Action.vote : Action → Option (PBFTMsg × Option PrepareReq)
  | .broadcastSignReq req p => some (req, some p)
  | .broadcastCommitReq req p => some (req, p)
  | _ => none

lemma Action.vote_eq_none {x : Action} (h : x.quiet = true) : x.vote = none := by
  cases x with
  | broadcastSignReq | broadcastCommitReq => cases h
  | _ => rfl

/-- The two requests name the same hash. -/
def sameProposal : Option PrepareReq → Option PrepareReq → Bool
  | some p, some p' => p.blockHash == p'.blockHash
  | _, _ => false

/-- The header hash of the block that comes with the request. -/
def PrepareReq.headerHash (E : Env) (p : PrepareReq) : Option Hash :=
  (PBFTEngine.proposedBlock E p).map fun b => E.headerHash b.header

/-- The two requests name the same hash and come with blocks of the same hash. -/
def sameBlock (E : Env) : Option PrepareReq → Option PrepareReq → Bool
  | some p, some p' => p.blockHash == p'.blockHash && p.headerHash E == p'.headerHash E
  | _, _ => false

/-- The commit requests in a log that no report of a block of their height or a higher one has released. -/
def openLocks : List Action → List (CommitReq × Option PrepareReq)
  | [] => []
  | .broadcastCommitReq req p :: log => (req, p) :: openLocks log
  | .reportBlock n :: log => (openLocks log).filter fun l => decide (n < l.1.height)
  | _ :: log => openLocks log

/-- No vote in the log is for another proposal than the one the node was locked on at that height, by the hash it names or by
its block. -/
def LockKept (E : Env) : List Action → Prop
  | [] => True
  | a :: log =>
    (∀ l ∈ openLocks log, ∀ v ∈ a.vote, v.1.height = l.1.height → sameBlock E v.2 l.2 = true) ∧ LockKept E log

instance decidableLockKept (E : Env) : ∀ log, Decidable (LockKept E log)
  | [] => isTrue trivial
  | a :: log =>
    have := decidableLockKept E log
    inferInstanceAs (Decidable
      ((∀ l ∈ openLocks log, ∀ v ∈ a.vote, v.1.height = l.1.height → sameBlock E v.2 l.2 = true) ∧ LockKept E log))

namespace PBFTEngine

/-- What keeps the lock: the empty flag is on no proposal with transactions that the lock would have refused, no partial
proposal completed on its arrival leaves the prepare cache of another one behind, and the view is not the one that marks
a cleared request. -/
structure LockSafe (E : Env) (s : PBFTEngine) (e : Event × Ambient) : Prop where
  empty : ∀ r, Takes E s e r → r.isEmpty = true → r.height = s.reqCache.committedPrepareCache.height →
      r.blockHash = s.reqCache.committedPrepareCache.blockHash ∨
        ∃ b, proposedBlock E r = some b ∧ b.transactions = [] ∧ s.omitEmptyBlock = true
  completed : ∀ p r, e.1 = .handlePartiallyPrepare p → Takes E s e r → s.reqCache.proposal = none ∨ Voted E e.2 s r
  view : s.view ≠ MAXVIEW

/-- Moreover the block of a proposal that is taken up has the hash that its leader has signed. -/
structure BlockLockSafe (E : Env) (s : PBFTEngine) (e : Event × Ambient) : Prop extends LockSafe E s e where
  block : ∀ r b, Takes E s e r → proposedBlock E r = some b → E.headerHash b.header = r.blockHash

/-- The node is locked on what it has voted to commit, as long as that height is under consensus, and every later vote
at the height is for the same proposal. -/
structure Locked (s : PBFTEngine) : Prop where
  raw : ∀ p, s.reqCache.proposal = some p → s.reqCache.rawPrepareCache.height = p.height ∧
      s.reqCache.rawPrepareCache.blockHash = p.blockHash
  proposal_le : ∀ p, s.reqCache.proposal = some p → p.height ≤ s.consensusBlockNumber
  locked : ∀ q o, .broadcastCommitReq q o ∈ s.log → q.height < s.consensusBlockNumber ∨
      q.height = s.consensusBlockNumber ∧ s.reqCache.committedPrepareCache.height = q.height ∧
        ∃ p, o = some p ∧ s.reqCache.committedPrepareCache.blockHash = p.blockHash
  prepared : ∀ q o p, .broadcastCommitReq q o ∈ s.log → s.reqCache.proposal = some p →
    q.height ≤ p.height ∧ (q.height = p.height → sameProposal (some p) o = true)
  kept : s.log.Pairwise fun newer older =>
    ∀ v ∈ newer.vote, ∀ q o, older = .broadcastCommitReq q o → v.1.height = q.height → sameProposal v.2 o = true

lemma openLocks_subset {log : List Action} {l : CommitReq × Option PrepareReq}
    (h : l ∈ openLocks log) : .broadcastCommitReq l.1 l.2 ∈ log := by
  fun_induction openLocks log with
  | case1 => simp at h
  | case2 req p log ih =>
    rcases mem_cons.mp h with rfl | hl
    · exact mem_cons_self
    · exact mem_cons_of_mem _ (ih hl)
  | case3 n log ih => exact mem_cons_of_mem _ (ih (mem_filter.mp h).1)
  | case4 a log _ _ ih => exact mem_cons_of_mem _ (ih h)

lemma lockKept_of_pairwise {E : Env} {log : List Action} (h : log.Pairwise fun newer older => ∀ v ∈ newer.vote, ∀ q o,
      older = .broadcastCommitReq q o → v.1.height = q.height → sameBlock E v.2 o = true) : LockKept E log := by
  induction log with
  | nil => trivial
  | cons a log ih =>
    rw [pairwise_cons] at h
    refine ⟨fun l hl v hv hheight => ?_, ih h.2⟩
    exact h.1 _ (openLocks_subset hl) v hv l.1 l.2 rfl hheight

variable {E : Env} {amb : Ambient} {s₀ a b : PBFTEngine} {e : Event}

/-- A step that casts no vote and leaves the lock alone keeps `Locked`, if the prepare cache is left alone with the raw
prepare, or cleared. -/
theorem Locked.quiet (ha : Locked a) (hcons : a.consensusBlockNumber ≤ b.consensusBlockNumber)
    (hlock : b.reqCache.committedPrepareCache = a.reqCache.committedPrepareCache)
    (hproposal : b.reqCache.proposal = none ∨ b.reqCache.proposal = a.reqCache.proposal ∧
      b.reqCache.rawPrepareCache = a.reqCache.rawPrepareCache)
    (hlog : ∃ l, b.log = l ++ a.log ∧ ∀ x ∈ l, x.vote = none) : Locked b := by
  obtain ⟨l, hlog, hquiet⟩ := hlog
  have hold : ∀ q o, Action.broadcastCommitReq q o ∈ b.log → .broadcastCommitReq q o ∈ a.log := by
    intro q o hmem
    rw [hlog] at hmem
    rcases mem_append.mp hmem with hnew | hold
    · cases hquiet _ hnew
    · exact hold
  have hsame : ∀ p, b.reqCache.proposal = some p → a.reqCache.proposal = some p ∧
      b.reqCache.rawPrepareCache = a.reqCache.rawPrepareCache := by
    intro p hp
    rcases hproposal with hnone | ⟨heq, hraw⟩
    · cases hnone.symm.trans hp
    · exact ⟨heq.symm.trans hp, hraw⟩
  refine ⟨fun p hp => ?_, fun p hp => ?_, fun q o hmem => ?_, fun q o p hmem hp => ?_, ?_⟩
  · rw [(hsame p hp).2]
    exact ha.raw p (hsame p hp).1
  · exact (ha.proposal_le p (hsame p hp).1).trans hcons
  · rw [hlock]
    rcases ha.locked q o (hold q o hmem) with hlt | ⟨heq, hheight, hhash⟩
    · exact .inl (hlt.trans_le hcons)
    · rcases hcons.lt_or_eq with hlt | hcons
      · exact .inl (heq.trans_lt hlt)
      · exact .inr ⟨heq.trans hcons, hheight, hhash⟩
  · exact ha.prepared q o p (hold q o hmem) (hsame p hp).1
  · rw [hlog, pairwise_append]
    refine ⟨pairwise_of_forall_mem_list fun x hx y _ v hv => ?_, ha.kept, fun x hx y _ v hv => ?_⟩ <;>
    · rw [hquiet x hx] at hv
      cases hv

variable {s : PBFTEngine} {bl result : Block} {r : PrepareReq}

lemma Locked.lockAndVote (hs : Locked s) (hp : Prepared E s)
    (hview : s.reqCache.prepareCache.view = s.view) (hmax : s.view ≠ MAXVIEW) : Locked (s.lockAndVote E amb) := by
  -- the prepare cache is not cleared, so there is a proposal the vote is for
  obtain ⟨x, hx⟩ := Option.ne_none_iff_exists'.mp (hp.proposal_ne_none hview hmax)
  have hframe : Frame s (s.lockAndVote E amb) := frame_lockAndVote
  have hheight : (s.ownVote E amb.commitStamp).height = x.height := hp.height x hx
  have hraw := hs.raw x hx
  have hle := hs.proposal_le x hx
  have hmem : ∀ q o, Action.broadcastCommitReq q o ∈ (s.lockAndVote E amb).log →
      q = s.ownVote E amb.commitStamp ∧ o = some x ∨ .broadcastCommitReq q o ∈ s.log := by
    intro q o h
    rw [lockAndVote_log, hx] at h
    simpa using h
  have hvoted : ∀ q o, Action.broadcastCommitReq q o ∈ (s.lockAndVote E amb).log →
      q.height ≤ x.height ∧ (q.height = x.height → sameProposal (some x) o = true) := by
    intro q o h
    rcases hmem q o h with ⟨rfl, rfl⟩ | hold
    · exact ⟨hheight.le, fun _ => beq_self_eq_true _⟩
    · exact hs.prepared q o x hold hx
  refine ⟨?_, ?_, fun q o h => ?_, fun q o p h hproposal => ?_, ?_⟩
  · rw [lockAndVote_reqCache]
    exact hs.raw
  · rw [lockAndVote_reqCache, hframe.consensusBlockNumber]
    exact hs.proposal_le
  · rw [lockAndVote_reqCache, hframe.consensusBlockNumber]
    obtain ⟨hqle, hqsame⟩ := hvoted q o h
    by_cases hlt : q.height < s.consensusBlockNumber
    · exact .inl hlt
    have hqx : q.height = x.height := by omega
    refine .inr ⟨by omega, hraw.1.trans hqx.symm, ?_⟩
    have hsame := hqsame hqx
    cases o with
    | none => cases hsame
    | some p => exact ⟨p, rfl, hraw.2.trans (by simpa [sameProposal] using hsame)⟩
  · rw [lockAndVote_reqCache] at hproposal
    cases hx.symm.trans hproposal
    exact hvoted q o h
  · rw [lockAndVote_log, hx, pairwise_cons, pairwise_cons, pairwise_cons]
    refine ⟨fun y hy v hv q o hq hvq => ?_, fun y _ v hv => (nomatch hv), fun y _ v hv => (nomatch hv), hs.kept⟩
    cases hv
    subst hq
    have hold : Action.broadcastCommitReq q o ∈ s.log := by simpa using hy
    exact (hs.prepared q o x hold hx).2 (hvq.symm.trans hheight)

lemma Locked.countAndVote (hs : Locked s) (hp : Prepared E s)
    (hmax : s.view ≠ MAXVIEW) : Locked (s.countAndVote E amb) := by
  have hsigns : ∀ m, Locked (s.withSigns m) := fun m =>
    hs.quiet le_rfl rfl (.inr ⟨rfl, rfl⟩) ⟨[], rfl, by simp⟩
  obtain ⟨m, -, hc | ⟨hview, -, hc⟩⟩ := countAndVote_cases
  · rw [hc]
    exact hsigns m
  · rw [hc]
    exact (hsigns m).lockAndVote (hp.congr rfl rfl) hview hmax

lemma Locked.sign {context : Bool} {q : CommitReq} {o : Option PrepareReq} (ha : Locked a)
    (hsafe : LockSafe E s₀ (e, amb)) (hready : Ready s₀ a) (ho : Origin E amb s₀ e r)
    (hv : s₀.isValidPrepare E amb r = .VALID) (hexec : Execution E amb s₀ r bl result context)
    (hq : .broadcastCommitReq q o ∈ a.log) (hheight : q.height = r.height) : sameProposal (some r) o = true := by
  have hvalid := validPrepare_of_isValidPrepare hv
  have hcons := hready.frame.consensusBlockNumber
  have hcache := congrArg PBFTReqCache.committedPrepareCache hready.reqCache
  rcases ha.locked q o hq with hlt | ⟨-, hlock, p, rfl, hhash⟩
  · have := hvalid.height
    omega
  rw [hcache] at hlock hhash
  have hsame : r.blockHash = s₀.reqCache.committedPrepareCache.blockHash := by
    rcases hvalid.lock with hempty | hlocked
    · rcases hsafe.empty r ⟨ho, hv⟩ hempty (hheight.symm.trans hlock.symm) with
        heq | ⟨b', hb', hnil, homit⟩
      · exact heq
      · cases hb'.symm.trans hexec.proposed
        exact absurd ⟨hnil, homit⟩ hexec.kept
    · exact hlocked (hheight.symm.trans hlock.symm)
  simpa [sameProposal] using hsame.trans hhash

lemma Locked.prepareFor {full : Bool} {context : Bool} (ha : Locked a) (hsafe : LockSafe E s₀ (e, amb))
    (hready : Ready s₀ a) (ho : Origin E amb s₀ e r) (hv : s₀.isValidPrepare E amb r = .VALID)
    (hexec : Execution E amb s₀ r bl result context) : Locked (a.prepareFor E amb full r bl result context) := by
  have hframe : Frame a (a.prepareFor E amb full r bl result context) := frame_prepareFor a full r bl result context
  have hheight : r.height = a.consensusBlockNumber :=
    (validPrepare_of_isValidPrepare hv).height.trans hready.frame.consensusBlockNumber.symm
  have hmem : ∀ q o, Action.broadcastCommitReq q o ∈
      (a.prepareFor E amb full r bl result context).log → .broadcastCommitReq q o ∈ a.log := by
    intro q o h
    rw [prepareFor_log] at h
    simpa using h
  have hvoted : ∀ q o, Action.broadcastCommitReq q o ∈ a.log →
      q.height ≤ r.height ∧ (q.height = r.height → sameProposal (some r) o = true) := by
    intro q o h
    refine ⟨?_, ha.sign hsafe hready ho hv hexec h⟩
    rcases ha.locked q o h with hlt | ⟨heq, -⟩ <;> omega
  refine ⟨fun p hp => ?_, fun p hp => ?_, fun q o h => ?_, fun q o p h hp => ?_, ?_⟩
  · rw [prepareFor_reqCache] at hp ⊢
    cases hp
    exact ⟨congrArg PBFTMsg.height executedRaw_toPBFTMsg, congrArg PBFTMsg.blockHash executedRaw_toPBFTMsg⟩
  · rw [prepareFor_reqCache] at hp
    cases hp
    rw [hframe.consensusBlockNumber]
    exact hheight.le
  · rw [prepareFor_reqCache, hframe.consensusBlockNumber]
    exact ha.locked q o (hmem q o h)
  · rw [prepareFor_reqCache] at hp
    cases hp
    exact hvoted q o (hmem q o h)
  · rw [prepareFor_log, pairwise_cons, pairwise_cons]
    refine ⟨fun y hy v hv' q o hq hvq => ?_, fun y _ v hv' => (nomatch hv'), ha.kept⟩
    cases hv'
    subst hq
    have hold : Action.broadcastCommitReq q o ∈ a.log := by simpa using hy
    exact (hvoted q o hold).2 hvq.symm

lemma locked_smallStep (hsafe : LockSafe E s₀ (e, amb)) (h : SmallStep E amb s₀ e a b)
    (hp : Prepared E a) (ha : Locked a) : Locked b := by
  cases h.effect with
  | prepare full req bl result context ht hready hexec =>
    refine (ha.prepareFor hsafe hready ht.1 ht.2 hexec).countAndVote prepared_prepareFor ?_
    rw [(frame_prepareFor a full req bl result context).view, hready.frame.view]
    exact hsafe.view
  | signVote req hs =>
    subst hs
    have hadd : Locked { a with reqCache := a.reqCache.addSignReq req } :=
      ha.quiet le_rfl rfl (.inr ⟨rfl, rfl⟩) ⟨[], rfl, by simp⟩
    exact hadd.countAndVote (hp.congr rfl rfl) hsafe.view
  | quiet hcons hlock hlog hkept hraw =>
    obtain ⟨l, hl, hquiet⟩ := hlog
    refine ha.quiet hcons hlock ?_ ⟨l, hl, fun x hx => Action.vote_eq_none (hquiet x hx)⟩
    rcases hraw hsafe.completed with hnone | hraw
    · exact .inl hnone
    · cases hkept with
      | cleared r hcache hproposal => exact .inl hproposal
      | same o hcache hblock hproposal => exact .inr ⟨hproposal, hraw⟩

lemma locked_start {cfg : NodeConfig} {backup : Option WireMsg} : Locked (start E amb cfg backup) := by
  have hfresh := fresh_start E amb cfg backup
  have hlog := start_log E amb cfg backup
  refine ⟨?_, ?_, ?_, ?_, ?_⟩
  · intro p hp
    cases hfresh.proposal.symm.trans hp
  · intro p hp
    cases hfresh.proposal.symm.trans hp
  · intro q o hmem
    rw [hlog] at hmem
    simp at hmem
  · intro q o p _ hp
    cases hfresh.proposal.symm.trans hp
  · rw [hlog]
    exact pairwise_singleton _ _

lemma locked_step (s : PBFTEngine) (e : Event × Ambient) (hsafe : LockSafe E s e)
    (hs : Prepared E s ∧ Locked s) : Prepared E (step E s e) ∧ Locked (step E s e) :=
  invariant_step (fun s => Prepared E s ∧ Locked s) (fun _ _ h hab =>
    ⟨prepared_smallStep h hab.1, locked_smallStep hsafe h hab.1 hab.2⟩) hs

/-- The proposal in the prepare cache and those that the node has voted for come with the blocks that they name. -/
structure BlockVotes (E : Env) (s : PBFTEngine) : Prop where
  proposal : ∀ p, s.reqCache.proposal = some p → p.headerHash E = some p.blockHash
  voted : ∀ x ∈ s.log, ∀ v ∈ x.vote, ∀ p, v.2 = some p → p.headerHash E = some p.blockHash

lemma BlockVotes.quiet (ha : BlockVotes E a)
    (hproposal : b.reqCache.proposal = none ∨ b.reqCache.proposal = a.reqCache.proposal)
    (hlog : ∃ l, b.log = l ++ a.log ∧ ∀ x ∈ l, x.vote = none) : BlockVotes E b := by
  obtain ⟨l, hlog, hquiet⟩ := hlog
  refine ⟨fun p hp => ?_, fun x hx v hv => ?_⟩
  · rcases hproposal with hnone | hsame
    · cases hnone.symm.trans hp
    · exact ha.proposal p (hsame.symm.trans hp)
  · rw [hlog] at hx
    rcases mem_append.mp hx with hnew | hold
    · rw [hquiet x hnew] at hv
      cases hv
    · exact ha.voted x hold v hv

lemma BlockVotes.countAndVote (hs : BlockVotes E s) : BlockVotes E (s.countAndVote E amb) := by
  obtain ⟨m, -, hc | ⟨-, -, hc⟩⟩ := countAndVote_cases
  · rw [hc]
    exact hs.quiet (.inr rfl) ⟨[], rfl, by simp⟩
  · rw [hc]
    refine ⟨fun p hp => hs.proposal p ?_, fun x hx v hv p hp => ?_⟩
    · rw [lockAndVote_reqCache] at hp
      exact hp
    · rw [lockAndVote_log] at hx
      rcases mem_cons.mp hx with rfl | hx
      · cases hv
        exact hs.proposal p hp
      · have hold : x ∈ s.log := by
          rcases mem_cons.mp hx with rfl | hx
          · cases hv
          · rcases mem_cons.mp hx with rfl | hx
            · cases hv
            · exact hx
        exact hs.voted x hold v hv p hp

lemma blockVotes_smallStep (hsafe : BlockLockSafe E s₀ (e, amb)) (h : SmallStep E amb s₀ e a b) (ha : BlockVotes E a) :
    BlockVotes E b := by
  cases h.effect with
  | prepare full req bl result context ht hready hexec =>
    have hblock : req.headerHash E = some req.blockHash := by
      rw [PrepareReq.headerHash, hexec.proposed, Option.map_some, hsafe.block req bl ht hexec.proposed]
    refine BlockVotes.countAndVote ⟨fun p hp => ?_, fun x hx v hv p hp => ?_⟩
    · rw [prepareFor_reqCache] at hp
      cases hp
      exact hblock
    · rw [prepareFor_log] at hx
      rcases mem_cons.mp hx with rfl | hx
      · cases hv
        cases hp
        exact hblock
      · rcases mem_cons.mp hx with rfl | hx
        · cases hv
        · exact ha.voted x hx v hv p hp
  | signVote req hs =>
    have hadd : BlockVotes E { a with reqCache := a.reqCache.addSignReq req } := ha.quiet (.inr rfl) ⟨[], rfl, by simp⟩
    exact hadd.countAndVote
  | quiet hcons hlock hlog hkept hraw =>
    obtain ⟨l, hl, hquiet⟩ := hlog
    refine ha.quiet ?_ ⟨l, hl, fun x hx => Action.vote_eq_none (hquiet x hx)⟩
    cases hkept with
    | cleared r hcache hproposal => exact .inl hproposal
    | same o hcache hblock hproposal => exact .inr hproposal

lemma blockVotes_start {cfg : NodeConfig} {backup : Option WireMsg} : BlockVotes E (start E amb cfg backup) := by
  refine ⟨fun p hp => ?_, fun x hx v hv => ?_⟩
  · cases (fresh_start E amb cfg backup).proposal.symm.trans hp
  · rw [start_log] at hx
    cases mem_singleton.mp hx
    cases hv

/-- A node that has voted to commit a proposal votes for no other proposal of that height until a block of the height is
reported to it, in every run in which `BlockLockSafe` holds of every event. -/
theorem lockKept_of_lockSafe (E : Env) (amb : Ambient) (cfg : NodeConfig) (backup : Option WireMsg)
    (es : List (Event × Ambient))
    (hsafe : Along (step E) (BlockLockSafe E) (start E amb cfg backup) es) :
    LockKept E (run (step E) (start E amb cfg backup) es).log := by
  obtain ⟨hlocked, hblocks⟩ := invariant_run (fun s => (Prepared E s ∧ Locked s) ∧ BlockVotes E s)
    (fun s e hsafe hs => ⟨locked_step s e hsafe.toLockSafe hs.1,
      invariant_step (BlockVotes E) (fun _ _ => blockVotes_smallStep hsafe) hs.2⟩)
    ⟨⟨(fresh_start E amb cfg backup).prepared, locked_start⟩, blockVotes_start⟩ hsafe
  refine lockKept_of_pairwise (hlocked.2.kept.imp_of_mem fun {newer older} hnewer holder h v hv q o hq hheight => ?_)
  have hsame := h v hv q o hq hheight
  subst hq
  obtain ⟨w, p⟩ := v
  cases p with
  | none => cases hsame
  | some p =>
    cases o with
    | none => cases hsame
    | some p' =>
      have hp := hblocks.voted newer hnewer _ hv p rfl
      have hp' := hblocks.voted _ holder _ rfl p' rfl
      have hhash : p.blockHash = p'.blockHash := beq_iff_eq.mp hsame
      simp [sameBlock, hp, hp', hhash]

end PBFTEngine

namespace Symbolic

open PBFTEngine

/-- The lock is lost to a proposal of another block that carries the flag of an empty one. -/
theorem not_lockKept_of_emptyFlag : ¬LockKept env (run (step env) (node 12)
      [propose false (block 5), voteFor .SignReqPacket 0 (block 5) 1,
        voteFor .SignReqPacket 2 (block 5) 1, propose true (block 6)]).log := by
  decide +kernel

lemma lockSafe_deliver {s : PBFTEngine} {kind : PacketType} {w : WireMsg} (hview : s.view ≠ MAXVIEW) :
    LockSafe env s (deliver kind false w) := by
  refine ⟨fun r htakes hempty => ?_, fun p r he => ?_, hview⟩
  · cases htakes.1 with
    | packet _ hdecode =>
      rw [(decodeToPrepare_pBlock hdecode).2] at hempty
      cases hempty
  · cases he

lemma blockLockSafe_deliver {s : PBFTEngine} {kind : PacketType} {w : WireMsg}
    (hblock : (w.block.bind env.decodeBlock).all (fun b => env.headerHash b.header == w.blockHash) = true)
    (hview : s.view ≠ MAXVIEW) : BlockLockSafe env s (deliver kind false w) := by
  refine ⟨lockSafe_deliver hview, fun r b htakes hb => ?_⟩
  cases htakes.1 with
  | packet _ hdecode =>
    obtain ⟨-, hhash, hproposed⟩ := decodeToPrepare_deliver rfl hdecode
    rw [← hproposed, hb] at hblock
    exact (beq_iff_eq.mp hblock).trans hhash.symm

theorem lockKept_of_lockSafe_locked_node : LockKept env (run (step env) (node 12)
      [propose false (block 5), voteFor .SignReqPacket 0 (block 5) 1,
        voteFor .SignReqPacket 2 (block 5) 1, propose false (block 6)]).log :=
  lockKept_of_lockSafe env ambient { keyPair := 12, blockChain := chain } none _
    ⟨blockLockSafe_deliver (by decide +kernel) (by decide +kernel), blockLockSafe_deliver (by decide +kernel) (by decide +kernel),
      blockLockSafe_deliver (by decide +kernel) (by decide +kernel),
      blockLockSafe_deliver (by decide +kernel) (by decide +kernel), trivial⟩

end Symbolic

end FiscoBcos
