import Mathlib.Data.List.Pairwise
import FiscoBcos.Pbft.CommitLock
import FiscoBcos.Pbft.Network
import FiscoBcos.Pbft.VoteCounting

/-!
# Agreement

Two quorums of commit requests share an honest sealer. This sealer has voted to commit both blocks, so
by its lock for one proposal, and what comes out of executing one proposal is one block.
-/

namespace FiscoBcos

open Machine List Option

variable {log : List Action} {kind : PacketType} {req p' : PrepareReq} {parent result : Block} {context : Bool}
  {bl' : Block} {w : WireMsg} {k : NodeID} {t : Tally}

def savedBlocks (log : List Action) : List Block :=
  log.filterMap fun
    | .commitBlock _ b _ => some b
    | _ => none

def SentCommit (log : List Action) (h : Hash) : Prop :=
  ∃ q ∈ sentRequests log, q.1 = .CommitReqPacket ∧ q.2.blockHash = h

instance (log : List Action) (h : Hash) : Decidable (SentCommit log h) := by
  unfold SentCommit
  infer_instance

lemma sentCommit_iff {h : Hash} : SentCommit log h ↔ ∃ q o, Action.broadcastCommitReq q o ∈ log ∧ q.blockHash = h := by
  constructor
  · rintro ⟨q, hq, hkind, hhash⟩
    obtain ⟨x, hx, hsent⟩ := mem_filterMap.mp hq
    cases x <;> cases hsent <;> cases hkind
    exact ⟨_, _, hx, hhash⟩
  · rintro ⟨q, o, hmem, hhash⟩
    exact ⟨_, mem_filterMap.mpr ⟨_, hmem, rfl⟩, rfl, hhash⟩

lemma mem_savedBlocks {b : Block} : b ∈ savedBlocks log ↔ ∃ t r, Action.commitBlock t b r ∈ log := by
  unfold savedBlocks
  rw [mem_filterMap]
  constructor
  · rintro ⟨x, hx, hb⟩
    cases x <;> cases hb
    exact ⟨_, _, hx⟩
  · rintro ⟨t, r, h⟩
    exact ⟨_, h, rfl⟩

namespace PBFTEngine

/-- No two honest nodes save different blocks of one height. -/
def Agreement (E : Env) (honest : Finset NodeID) (net : NodeID → PBFTEngine) : Prop :=
  ∀ i ∈ honest, ∀ j ∈ honest, ∀ b ∈ savedBlocks (net i).log, ∀ b' ∈ savedBlocks (net j).log,
    b.header.number = b'.header.number → b.hash E = b'.hash E

instance (E : Env) (honest : Finset NodeID) (net : NodeID → PBFTEngine) :
    Decidable (Agreement E honest net) := by
  unfold Agreement
  infer_instance

/-- What keeps the nodes in agreement: besides the unforgeability of signatures and the fixed configuration, that the
lock is safe, that nobody votes with two signatures, that no vote of an honest sealer is passed off as a commit
request, and that the hash of a proposal determines its number, its header up to the roots, and its transactions. -/
structure AgreementSafe (E : Env) (sealers : List NodeID) (limit : Nat) (honest : Finset NodeID)
    (canon : PacketType → NodeID → Int → Hash → Bytes) (body : Hash → BlockHeader × List Bytes)
    (net : NodeID → PBFTEngine) (m : NodeID × Event × Ambient) : Prop where
  unforged : Unforged E sealers limit honest net m
  lock : LockSafe E (net m.1) m.2
  signatures : SingleSignatures E sealers limit canon (net m.1) m.2
  kinds : ∀ p req, m.2.1 = .handleMsg p → p.packetId = .CommitReqPacket → decodeToMsg p = some req →
    (net m.1).checkReq E m.2.2 req ≠ .INVALID → ∀ i ∈ honest, getSealerByIndex sealers req.idx = i →
      req.blockHash ∈ signedHashes E (net i).log → SentCommit (net i).log req.blockHash
  proposals : ∀ r b, Takes E (net m.1) m.2 r → proposedBlock E r = some b →
    b.header.number = r.height ∧ (b.header.withoutRoots, b.transactions) = body r.blockHash
  executing : m.2.2.executingNumber ≤ (net m.1).blockChain.number + 1

section

variable (E : Env) (body : Hash → BlockHeader × List Bytes)

structure Outcome (chain : BlockChain)
    (p : PrepareReq) (h : Hash) (parent : Block) (roots : ExecutionRoots) : Prop where
  onChain : chain.getBlockByNumber (p.height - 1) = some parent
  number : (body p.blockHash).1.number = p.height
  executed : E.runTransactions (parent.info E) (body p.blockHash).1 (body p.blockHash).2 = some roots
  hash : h = E.headerHash ((body p.blockHash).1.withRoots roots)

structure Outcomes (s : PBFTEngine) : Prop where
  prepared : ∀ p, s.reqCache.proposal = some p →
    ∃ parent roots, Outcome E body s.blockChain p s.reqCache.prepareCache.blockHash parent roots
  commits : ∀ q o, Action.broadcastCommitReq q o ∈ s.log → ∃ p, o = some p ∧ q.height = p.height ∧
    ∃ parent roots, Outcome E body s.blockChain p q.blockHash parent roots

end

variable {E : Env} {amb : Ambient} {s₀ a b : PBFTEngine} {e : Event} {sealers : List NodeID}
  {limit : Nat} {honest : Finset NodeID} {canon : PacketType → NodeID → Int → Hash → Bytes}
  {body : Hash → BlockHeader × List Bytes} {logs logs' : NodeID → List Action}

variable {h : Hash} {p : PrepareReq} {bl : Block} {s : PBFTEngine}

lemma Outcome.unique {chain : BlockChain} {h' : Hash} {parent' : Block}
    {roots roots' : ExecutionRoots} (ho : Outcome E body chain p h parent roots)
    (ho' : Outcome E body chain p' h' parent' roots') (hp : p.blockHash = p'.blockHash) : h = h' := by
  have hheight : p.height = p'.height := by
    rw [← ho.number, ← ho'.number, hp]
  have hparent : parent = parent' := by
    have hfound := ho.onChain
    rw [hheight, ho'.onChain] at hfound
    exact (some.inj hfound).symm
  subst hparent
  have hroots : roots = roots' := by
    have hrun := ho.executed
    rw [hp, ho'.executed] at hrun
    exact (some.inj hrun).symm
  rw [ho.hash, ho'.hash, hp, hroots]

lemma Outcome.mono {roots : ExecutionRoots} (hstep : SmallStep E amb s₀ e a b)
    (ho : Outcome E body a.blockChain p h parent roots) : Outcome E body b.blockChain p h parent roots :=
  ⟨hstep.getBlockByNumber ho.onChain, ho.number, ho.executed, ho.hash⟩

lemma Execution.roots (hempty : ∀ info h, E.runTransactions info h [] ≠ none)
    (hexecuting : amb.executingNumber ≤ bl.header.number) (hcontext : context = true ∨ bl.transactions = [])
    (h : Execution E amb s₀ req bl result context) :
    ∃ roots, E.runTransactions (s₀.blockChain.headInfo E) bl.header.withoutRoots bl.transactions =
        some roots ∧ result.header = bl.header.withoutRoots.withRoots roots := by
  have hresult := h.result
  unfold executeBlock at hresult
  rw [if_neg (not_lt.mpr hexecuting)] at hresult
  cases hrun : E.runTransactions (s₀.blockChain.headInfo E) bl.header.withoutRoots bl.transactions with
  | none =>
    rw [hrun] at hresult
    obtain ⟨-, rfl⟩ := Prod.mk.inj hresult
    rcases hcontext with hfalse | hnil
    · cases hfalse
    · rw [hnil] at hrun
      exact absurd hrun (hempty _ _)
  | some roots =>
    rw [hrun] at hresult
    refine ⟨roots, rfl, ?_⟩
    dsimp only at hresult
    split at hresult <;>
    · rw [← (Prod.mk.inj hresult).1]
      rfl

lemma outcome_prepareFor {full : Bool}
    (hzero : ∀ h, E.headerHash h ≠ 0) (hempty : ∀ info h, E.runTransactions info h [] ≠ none)
    (hexecuting : amb.executingNumber ≤ s₀.blockChain.number + 1)
    (hbody : bl.header.number = req.height ∧ (bl.header.withoutRoots, bl.transactions) = body req.blockHash)
    (hready : Ready s₀ a) (hexec : Execution E amb s₀ req bl result context)
    (hcontext : context = true ∨ bl.transactions = []) :
    ∃ parent roots, Outcome E body (a.prepareFor E amb full req bl result context).blockChain req
      (a.prepareFor E amb full req bl result context).reqCache.prepareCache.blockHash parent roots := by
  have hnumber := hexec.number hzero
  obtain ⟨roots, hroots, hheader⟩ := hexec.roots hempty (by omega) hcontext
  have hframe : Frame s₀ (a.prepareFor E amb full req bl result context) :=
    hready.frame.trans (frame_prepareFor a full req bl result context)
  refine ⟨s₀.blockChain.head, roots, ?_, ?_, ?_, ?_⟩
  · rw [hframe.blockChain, ← hbody.1, hnumber, Int.add_sub_cancel]
    exact s₀.blockChain.getBlockByNumber_number
  · rw [← hbody.2, ← hbody.1]
    rfl
  · rw [← hbody.2]
    exact hroots
  · rw [prepareFor_reqCache, ← hbody.2]
    exact congrArg E.headerHash hheader

/-- What a small step does to the votes: it counts them, for a new proposal or with a new sign request, or it casts none
and leaves what is in the prepare cache, or clears it. -/
inductive VoteEffect (E : Env) (amb : Ambient) (s₀ : PBFTEngine) (e : Event) (a b : PBFTEngine) : Prop where
  | prepare (full : Bool) (req : PrepareReq) (bl result : Block) (context : Bool)
      (ht : Takes E s₀ (e, amb) req) (hready : Ready s₀ a)
      (hexec : Execution E amb s₀ req bl result context)
      (hcontext : context = true ∨ bl.transactions = [])
      (hb : b = (a.prepareFor E amb full req bl result context).countAndVote E amb)
  | signVote (req : SignReq) (hs : a = s₀)
      (hb : b = { a with reqCache := a.reqCache.addSignReq req }.countAndVote E amb)
  | quiet (hcache : b.reqCache.proposal = none ∨ b.reqCache.proposal = a.reqCache.proposal ∧
        b.reqCache.prepareCache.blockHash = a.reqCache.prepareCache.blockHash)
      (hlog : ∀ q o, Action.broadcastCommitReq q o ∈ b.log → Action.broadcastCommitReq q o ∈ a.log)

lemma SmallStep.voteEffect (h : SmallStep E amb s₀ e a b) : VoteEffect E amb s₀ e a b := by
  cases h.effect with
  | prepare full req bl result context ht hready hexec hcontext =>
    exact .prepare full req bl result context ht hready hexec hcontext rfl
  | signVote req hs => exact .signVote req hs rfl
  | quiet _ _ hlog hkept =>
    refine .quiet ?_ fun q o hmem => mem_log_of_quiet hlog hmem rfl
    cases hkept with
    | cleared r hcache hproposal => exact .inl hproposal
    | same o hcache hblock hproposal => exact .inr ⟨hproposal, by rw [hcache]⟩

lemma Outcomes.countAndVote (hs : Outcomes E body s) (hprep : Prepared E s)
    (hmax : s.view ≠ MAXVIEW) : Outcomes E body (s.countAndVote E amb) := by
  obtain ⟨m, -, hc | ⟨hview, -, hc⟩⟩ := countAndVote_cases
  · rw [hc]
    exact ⟨hs.prepared, hs.commits⟩
  have hframe : Frame (s.withSigns m) ((s.withSigns m).lockAndVote E amb) := frame_lockAndVote
  rw [hc]
  refine ⟨fun p hp => ?_, fun q o hmem => ?_⟩
  · rw [lockAndVote_reqCache] at hp ⊢
    rw [hframe.blockChain]
    exact hs.prepared p hp
  rw [hframe.blockChain]
  rw [lockAndVote_log] at hmem
  simp only [mem_cons, reduceCtorEq, false_or] at hmem
  rcases hmem with hnew | hold
  · obtain ⟨p, hp⟩ := ne_none_iff_exists'.mp (hprep.proposal_ne_none hview hmax)
    injection hnew with hq ho
    subst hq ho
    exact ⟨p, hp, hprep.height p hp, hs.prepared p hp⟩
  · exact hs.commits q o hold

lemma outcomes_smallStep (hzero : ∀ h, E.headerHash h ≠ 0)
    (hempty : ∀ info h, E.runTransactions info h [] ≠ none) (hmax : s₀.view ≠ MAXVIEW)
    (hexecuting : amb.executingNumber ≤ s₀.blockChain.number + 1)
    (hbody : ∀ r bl, Takes E s₀ (e, amb) r → proposedBlock E r = some bl →
      bl.header.number = r.height ∧ (bl.header.withoutRoots, bl.transactions) = body r.blockHash)
    (h : SmallStep E amb s₀ e a b) (hprep : Prepared E a) (ha : Outcomes E body a) : Outcomes E body b := by
  cases h.voteEffect with
  | prepare full req bl result context ht hready hexec hcontext hb =>
    have hframe : Frame a (a.prepareFor E amb full req bl result context) :=
      frame_prepareFor a full req bl result context
    subst hb
    refine Outcomes.countAndVote ⟨fun p hp => ?_, fun q o hmem => ?_⟩ prepared_prepareFor ?_
    · rw [prepareFor_reqCache] at hp
      cases hp
      exact outcome_prepareFor hzero hempty hexecuting (hbody req bl ht hexec.proposed) hready hexec hcontext
    · rw [prepareFor_log] at hmem
      simp only [mem_cons, reduceCtorEq, false_or] at hmem
      rw [hframe.blockChain]
      exact ha.commits q o hmem
    · rw [hframe.view, hready.frame.view]
      exact hmax
  | signVote req hs hb =>
    subst hs hb
    have hadd : Prepared E { a with reqCache := a.reqCache.addSignReq req } := hprep.congr rfl rfl
    have hout : Outcomes E body { a with reqCache := a.reqCache.addSignReq req } :=
      ⟨ha.prepared, ha.commits⟩
    exact hout.countAndVote hadd hmax
  | quiet hcache hlog =>
    refine ⟨fun p hp => ?_, fun q o hmem => ?_⟩
    · rcases hcache with hnone | ⟨hproposal, hhash⟩
      · cases hnone.symm.trans hp
      · obtain ⟨parent, roots, ho⟩ := ha.prepared p (hproposal ▸ hp)
        rw [hhash]
        exact ⟨parent, roots, ho.mono h⟩
    · obtain ⟨p, hp, hheight, parent, roots, ho⟩ := ha.commits q o (hlog q o hmem)
      exact ⟨p, hp, hheight, parent, roots, ho.mono h⟩

section

variable (E : Env) (sealers : List NodeID) (honest : Finset NodeID) (logs : NodeID → List Action)

def CommitBacked (r : PBFTMsg) : Prop :=
  checkSign E sealers r = true → ∀ i ∈ honest, getSealerByIndex sealers r.idx = i → SentCommit (logs i) r.blockHash

structure SavedBy (t : Tally) (b : Block) : Prop where
  quorum : t.Quorum E
  counted : t.sealers = sealers
  size : t.minValidNodes = sealers.length - (sealers.length - 1) / 3
  votes : ∀ r ∈ t.votes, r.blockHash = b.hash E ∧ CommitBacked E sealers honest logs r

end

lemma SentCommit.mono {log' : List Action} (hlog : ∀ x ∈ log, x ∈ log') (hs : SentCommit log h) : SentCommit log' h := by
  obtain ⟨q, o, hmem, hq⟩ := sentCommit_iff.mp hs
  exact sentCommit_iff.mpr ⟨q, o, hlog _ hmem, hq⟩

lemma CommitBacked.mono {r : PBFTMsg} (h : ∀ i, ∀ x ∈ logs i, x ∈ logs' i)
    (hr : CommitBacked E sealers honest logs r) : CommitBacked E sealers honest logs' r :=
  fun hsign i hi hidx => SentCommit.mono (h i) (hr hsign i hi hidx)

def Tally.voters (E : Env) (t : Tally) : Finset Nat :=
  ((t.valid E).map PBFTMsg.idx).toFinset

lemma SavedBy.voters (h : SavedBy E sealers honest logs t bl) : Tally.voters E t ⊆ Finset.range sealers.length ∧
      sealers.length - (sealers.length - 1) / 3 ≤ (Tally.voters E t).card ∧
        ∀ i ∈ Tally.voters E t, getSealerByIndex sealers i ∈ honest →
          SentCommit (logs (getSealerByIndex sealers i)) (bl.hash E) := by
  have hvalid : ∀ i ∈ Tally.voters E t, ∃ r ∈ t.votes, checkSign E sealers r = true ∧ r.idx = i := by
    intro i hi
    obtain ⟨r, hr, rfl⟩ := mem_map.mp (mem_toFinset.mp hi)
    obtain ⟨hmem, hgood⟩ := mem_filter.mp hr
    rw [h.counted, Bool.and_eq_true] at hgood
    exact ⟨r, hmem, hgood.2, rfl⟩
  refine ⟨fun i hi => ?_, ?_, fun i hi hhonest => ?_⟩
  · obtain ⟨r, -, hsign, rfl⟩ := hvalid i hi
    exact Finset.mem_range.mpr (lt_length_of_checkSign hsign)
  · have hquorum := h.quorum
    unfold Tally.voters
    rw [List.card_toFinset, ← h.size]
    exact hquorum
  · obtain ⟨r, hr, hsign, rfl⟩ := hvalid i hi
    obtain ⟨hhash, hbacked⟩ := h.votes r hr
    rw [← hhash]
    exact hbacked hsign _ hhonest rfl

lemma exists_common_voter {t' : Tally} (hpos : 1 ≤ sealers.length) (hfaulty : ((Finset.range sealers.length).filter
      fun i => getSealerByIndex sealers i ∉ honest).card ≤ (sealers.length - 1) / 3)
    (h : SavedBy E sealers honest logs t bl) (h' : SavedBy E sealers honest logs t' bl') :
    ∃ i ∈ honest, SentCommit (logs i) (bl.hash E) ∧ SentCommit (logs i) (bl'.hash E) := by
  obtain ⟨hsub, hcard, hsent⟩ := h.voters
  obtain ⟨hsub', hcard', hsent'⟩ := h'.voters
  obtain ⟨i, hi, hi', hcorrect⟩ := Quorum.exists_common_honest (Finset.card_range sealers.length)
    (by omega) hsub hsub' hcard hcard' hfaulty
  have hhonest : getSealerByIndex sealers i ∈ honest := by
    by_contra hnot
    exact hcorrect (Finset.mem_filter.mpr ⟨hsub hi, hnot⟩)
  exact ⟨_, hhonest, hsent i hi hhonest, hsent' i hi' hhonest⟩

lemma Locked.commits_agree (hs : Locked s) {q q' : CommitReq}
    (hmem : .broadcastCommitReq q (some p) ∈ s.log) (hmem' : .broadcastCommitReq q' (some p') ∈ s.log)
    (hheight : q.height = q'.height) : q = q' ∨ p.blockHash = p'.blockHash := by
  by_cases heq : Action.broadcastCommitReq q (some p) = .broadcastCommitReq q' (some p')
  · injection heq with hqq
    exact .inl hqq
  have hsymm : Std.Symm fun x y : Action =>
      (∀ v ∈ x.vote, ∀ q o, y = .broadcastCommitReq q o → v.1.height = q.height → sameProposal v.2 o = true) ∨
      ∀ v ∈ y.vote, ∀ q o, x = .broadcastCommitReq q o → v.1.height = q.height →
        sameProposal v.2 o = true := ⟨fun _ _ => Or.symm⟩
  right
  rcases @List.Pairwise.forall _ _ _ hsymm (hs.kept.imp fun h => .inl h) _ hmem _ hmem' heq with
    hnewer | holder
  · exact beq_iff_eq.mp (hnewer _ rfl q' (some p') rfl hheight)
  · exact (beq_iff_eq.mp (holder _ rfl q (some p) rfl hheight.symm)).symm

lemma eq_of_sentCommit (hinj : Function.Injective E.headerHash) (hlocked : Locked s) (hout : Outcomes E body s)
    (hnumber : bl.header.number = bl'.header.number) (h : SentCommit s.log (bl.hash E))
    (h' : SentCommit s.log (bl'.hash E)) : bl.hash E = bl'.hash E := by
  obtain ⟨q, o, hmem, hq⟩ := sentCommit_iff.mp h
  obtain ⟨q', o', hmem', hq'⟩ := sentCommit_iff.mp h'
  obtain ⟨p, rfl, hheight, parent, roots, ho⟩ := hout.commits q o hmem
  obtain ⟨p', rfl, hheight', parent', roots', ho'⟩ := hout.commits q' o' hmem'
  -- the hash of a block gives its number, and that is the height of the proposal
  have hsame : q.height = q'.height := by
    have hbl := hinj (hq.symm.trans ho.hash)
    have hbl' := hinj (hq'.symm.trans ho'.hash)
    rw [hbl, hbl', BlockHeader.withRoots_number, BlockHeader.withRoots_number, ho.number, ho'.number] at hnumber
    rw [hheight, hheight', hnumber]
  rw [← hq, ← hq']
  rcases hlocked.commits_agree hmem hmem' hsame with hone | hproposal
  · rw [hone]
  · exact ho.unique ho' hproposal

structure NodeSafe (E : Env) (sealers : List NodeID) (limit : Nat) (honest : Finset NodeID)
    (canon : PacketType → NodeID → Int → Hash → Bytes) (body : Hash → BlockHeader × List Bytes)
    (logs : NodeID → List Action) (s : PBFTEngine) : Prop where
  heights : Heights s
  configured : Configured sealers limit s
  counting : Counting E sealers canon s
  locked : Locked s
  outcomes : Outcomes E body s
  commits : Cached (fun _ => True) (CommitBacked E sealers honest logs) s.reqCache
  saved : ∀ t bl r, .commitBlock t bl r ∈ s.log → SavedBy E sealers honest logs t bl

lemma NodeSafe.mono (h : ∀ i, ∀ x ∈ logs i, x ∈ logs' i) (hs : NodeSafe E sealers limit honest canon body logs s) :
    NodeSafe E sealers limit honest canon body logs' s := by
  refine ⟨hs.heights, hs.configured, hs.counting, hs.locked, hs.outcomes,
    ⟨hs.commits.1, hs.commits.2.mono fun r hr => hr.mono h⟩, fun t bl r hmem => ?_⟩
  have hsaved := hs.saved t bl r hmem
  exact ⟨hsaved.quorum, hsaved.counted, hsaved.size, fun v hv => ⟨(hsaved.votes v hv).1, (hsaved.votes v hv).2.mono h⟩⟩

lemma commitBacked_smallStep (hsealers : Sealers sealers) (hconf₀ : Configured sealers limit s₀)
    (hconf : Configured sealers limit a) (hdelivered : ∀ p req, e = .handleMsg p → p.packetId = .CommitReqPacket →
      decodeToMsg p = some req → s₀.checkReq E amb req ≠ .INVALID → CommitBacked E sealers honest logs req)
    (hlog : logs a.keyPair = b.log) (h : SmallStep E amb s₀ e a b)
    (ha : Cached (fun _ => True) (CommitBacked E sealers honest logs) a.reqCache) :
    Cached (fun _ => True) (CommitBacked E sealers honest logs) b.reqCache := by
  refine h.cached hconf₀ (fun _ _ _ _ => trivial) (fun _ _ _ hr => hr) (fun _ _ => trivial) (fun r hr => ?_) ha
  cases hr with
  | @own t hframe hidx hview hmem =>
    intro _ i _ hi
    have hkey := ((hconf.of_frame hframe).own_key hsealers (hframe.idx ▸ hidx)).1
    have hown : i = a.keyPair := (hi.symm.trans hkey).trans hframe.keyPair
    rw [hown, hlog]
    exact sentCommit_iff.mpr ⟨_, _, hmem, rfl⟩
  | checked hs he hkind hdecode hv => exact hdelivered _ _ he hkind hdecode (by simp [← hs, hv])
  | @future p req hs he hkind hdecode hv => exact hdelivered p req he hkind hdecode (by simp [← hs, hv])

lemma savedBy_smallStep (hsize : sealers.length ≤ MAXIDX) (h : SmallStep E amb s₀ e a b)
    (ha : NodeSafe E sealers limit honest canon body logs a) (hcounted : CountsSealers E b.log) :
    ∀ t bl r, .commitBlock t bl r ∈ b.log → SavedBy E sealers honest logs t bl := by
  intro t bl r hmem
  have hquorum := hcounted _ hmem t rfl
  rcases h.tally hmem with hold | hnone | hnew
  · exact ha.saved t bl r hold
  · cases hnone
  · cases hnew with
    | @save m m' bl _ hcommits hview hheight hblock hcount =>
      have hset := ha.counting.prepared.proposal_ne_none_of_lt ha.heights hheight
      obtain ⟨p, hp⟩ := ne_none_iff_exists'.mp hset
      obtain ⟨bl', hbl', hhash⟩ := ha.counting.prepared.block p hp
      cases hblock.symm.trans hbl'
      refine ⟨hquorum, ha.configured.sealerList, ?_, fun v hv => ⟨?_, ?_⟩⟩
      · have hmin := ha.configured.minValidNodes
        rw [Nat.mod_eq_of_lt (by omega)] at hmin
        exact hmin
      · have hkey := BucketMap.key_of_mem_bucket hv
        unfold Block.hash
        rw [hkey, signedBlock_header]
        exact hhash.symm
      · exact hcommits.all (fun _ _ _ hr => hr) ha.commits.2 _ v hv

lemma AgreementSafe.commitBacked {net : NodeID → PBFTEngine} {m : NodeID × Event × Ambient}
    (h : AgreementSafe E sealers limit honest canon body net m) {p : PBFTMsgPacket} {req : PBFTMsg}
    (he : m.2.1 = .handleMsg p) (hkind : p.packetId = .CommitReqPacket) (hdecode : decodeToMsg p = some req)
    (hv : (net m.1).checkReq E m.2.2 req ≠ .INVALID) : CommitBacked E sealers honest (fun i => (net i).log) req := by
  intro hsign i hi hidx
  unfold checkSign at hsign
  rw [hidx, Bool.and_eq_true, Bool.and_eq_true] at hsign
  exact h.kinds p req he hkind hdecode hv i hi hidx ((h.unforged.backed p req he hdecode i hi hidx).1 hsign.2.1)

lemma nodeSafe_netStep (hverify : ∀ key h n, E.verify key (E.sign key h n) h = true) (hzero : ∀ h, E.headerHash h ≠ 0)
    (hempty : ∀ info h, E.runTransactions info h [] ≠ none) (hsealers : Sealers sealers) (net : NodeID → PBFTEngine)
    (m : NodeID × Event × Ambient) (hsafe : AgreementSafe E sealers limit honest canon body net m)
    (hnet : (∀ k, (net k).keyPair = k) ∧ ∀ k, NodeSafe E sealers limit honest canon body (fun i => (net i).log) (net k))
    : (∀ k, (netStep (step E) net m k).keyPair = k) ∧ ∀ k, NodeSafe E sealers limit honest canon body
        (fun i => (netStep (step E) net m i).log) (netStep (step E) net m k) := by
  refine ⟨keyPair_netStep net m hnet.1, ?_⟩
  refine invariant_netStep (fun logs s => NodeSafe E sealers limit honest canon body logs s)
    (fun _ _ s h hs => hs.mono h) (hnet.1 m.1) (fun a b h hrest hkey hlogs ha => ?_) hnet.2
  have hconf₀ := (hnet.2 m.1).configured
  have hcounting := counting_smallStep hverify hsealers hsafe.signatures hconf₀
    (hkey.trans (hnet.1 m.1).symm) hrest h ha.heights ha.configured ha.counting
  have hlog : Function.update (fun i => (net i).log) m.1 b.log a.keyPair = b.log := by
    rw [hkey, Function.update_self]
  exact ⟨heights_smallStep h ha.heights, configured_smallStep hsafe.unforged.config h ha.configured,
    hcounting, locked_smallStep hsafe.lock h ha.counting.prepared ha.locked,
    outcomes_smallStep hzero hempty hsafe.lock.view hsafe.executing hsafe.proposals h ha.counting.prepared ha.outcomes,
    commitBacked_smallStep hsealers hconf₀ ha.configured
      (fun p req he hkind hdecode hv => (hsafe.commitBacked he hkind hdecode hv).mono hlogs) hlog h ha.commits,
    savedBy_smallStep hsealers.size h ha hcounting.counted⟩

lemma nodeSafe_start (amb : NodeID → Ambient) (hamb : ∀ k, FixedConfig sealers limit (amb k))
    (cfg : NodeID → NodeConfig) (backup : NodeID → Option WireMsg) (k : NodeID) :
    NodeSafe E sealers limit honest canon body
      (fun i => (startNetwork E amb cfg backup i).log) (startNetwork E amb cfg backup k) := by
  have hfresh := fresh_start E (amb k) { cfg k with keyPair := k } (backup k)
  have hlog := start_log E (amb k) { cfg k with keyPair := k } (backup k)
  have hnone : ∀ x, (∀ n, x ≠ Action.reportBlock n) → x ∉ (startNetwork E amb cfg backup k).log := by
    intro x hx hmem
    unfold startNetwork at hmem
    rw [hlog] at hmem
    exact hx _ (mem_singleton.mp hmem)
  refine ⟨heights_start _ _ _ _, configured_start (hamb k), counting_start,
    locked_start, ⟨fun p hp => ?_, fun q o hmem => ?_⟩, hfresh.cached, fun t bl r hmem => ?_⟩
  · cases hfresh.proposal.symm.trans hp
  · exact absurd hmem (hnone _ (by simp))
  · exact absurd hmem (hnone _ (by simp))

/-- In every run of a network with at most a third of faulty sealers in which `AgreementSafe` holds of every event, no
two honest nodes save different blocks of one height. -/
theorem agreement_of_agreementSafe (E : Env) (hinj : Function.Injective E.headerHash)
    (hzero : ∀ h, E.headerHash h ≠ 0) (hempty : ∀ info h, E.runTransactions info h [] ≠ none)
    (hverify : ∀ key h n, E.verify key (E.sign key h n) h = true) (sealers : List NodeID)
    (hsealers : Sealers sealers) (limit : Nat) (honest : Finset NodeID)
    (hfaulty : ((Finset.range sealers.length).filter
      fun i => getSealerByIndex sealers i ∉ honest).card ≤ (sealers.length - 1) / 3)
    (canon : PacketType → NodeID → Int → Hash → Bytes) (body : Hash → BlockHeader × List Bytes) (amb : NodeID → Ambient)
    (hamb : ∀ k, FixedConfig sealers limit (amb k)) (cfg : NodeID → NodeConfig)
    (backup : NodeID → Option WireMsg) (ms : List (NodeID × Event × Ambient))
    (hrun : Along (netStep (step E))
      (AgreementSafe E sealers limit honest canon body) (startNetwork E amb cfg backup) ms) :
    Agreement E honest (run (netStep (step E)) (startNetwork E amb cfg backup) ms) := by
  have hinv := invariant_run (fun net : NodeID → PBFTEngine => (∀ k, (net k).keyPair = k) ∧
      ∀ k, NodeSafe E sealers limit honest canon body (fun i => (net i).log) (net k))
    (nodeSafe_netStep hverify hzero hempty hsealers)
    ⟨keyPair_startNetwork E amb cfg backup, nodeSafe_start amb hamb cfg backup⟩ hrun
  intro i _ j _ bl hbl bl' hbl' hnumber
  obtain ⟨t, r, hmem⟩ := mem_savedBlocks.mp hbl
  obtain ⟨t', r', hmem'⟩ := mem_savedBlocks.mp hbl'
  obtain ⟨k, -, hsent, hsent'⟩ := exists_common_voter (hamb 0).length_pos hfaulty
    ((hinv.2 i).saved t bl r hmem) ((hinv.2 j).saved t' bl' r' hmem')
  exact eq_of_sentCommit hinj (hinv.2 k).locked (hinv.2 k).outcomes hnumber hsent hsent'

end PBFTEngine

namespace Symbolic

open PBFTEngine

/-- Sealer 0 gives sealer `i` a round for the block of transaction `tx`, all by itself: it votes twice in each phase,
with different signatures of the same hash. -/
def soloRound (i : NodeID) (tx : Nat) : List (NodeID × Event × Ambient) :=
  [(i, propose false (block tx)), (i, voteFor .SignReqPacket 0 (block tx) 1),
    (i, voteFor .SignReqPacket 0 (block tx) 2), (i, voteFor .CommitReqPacket 0 (block tx) 1),
    (i, voteFor .CommitReqPacket 0 (block tx) 2)]

variable {net : NodeID → PBFTEngine}

lemma unforged_deliver_of_faulty {flag : Bool} (h : w.idx = 0) :
    Unforged env sealers 1000 {12, 13, 14} net (k, deliver kind flag w) := by
  refine unforged_deliver fun i hi hidx => ?_
  rw [h] at hidx
  subst hidx
  exact absurd hi (by decide)

lemma along_unforged_soloRound {i : NodeID} {tx : Nat} :
    Along (netStep (step env)) (Unforged env sealers 1000 {12, 13, 14}) net (soloRound i tx) :=
  ⟨unforged_deliver_of_faulty rfl, unforged_deliver_of_faulty rfl, unforged_deliver_of_faulty rfl,
    unforged_deliver_of_faulty rfl, unforged_deliver_of_faulty rfl, trivial⟩

theorem not_agreement_of_soloRounds : (((Finset.range sealers.length).filter
        fun i => getSealerByIndex sealers i ∉ ({12, 13, 14} : Finset NodeID)).card ≤ (sealers.length - 1) / 3 ∧
      Along (netStep (step env)) (Unforged env sealers 1000 {12, 13, 14}) network (soloRound 12 5 ++ soloRound 13 6)) ∧
      ¬Agreement env {12, 13, 14} (run (netStep (step env)) network (soloRound 12 5 ++ soloRound 13 6)) :=
  ⟨⟨by decide, along_append.mpr ⟨along_unforged_soloRound, along_unforged_soloRound⟩⟩, by decide +kernel⟩

def jointRound : List (NodeID × Event × Ambient) :=
  [(12, propose false (block 5)), (13, propose false (block 5)),
    (12, voteFor .SignReqPacket 0 (block 5) 0), (12, voteFor .SignReqPacket 2 (block 5) 0),
    (13, voteFor .SignReqPacket 0 (block 5) 0), (13, voteFor .SignReqPacket 1 (block 5) 0),
    (12, voteFor .CommitReqPacket 0 (block 5) 0), (12, voteFor .CommitReqPacket 2 (block 5) 0),
    (13, voteFor .CommitReqPacket 0 (block 5) 0), (13, voteFor .CommitReqPacket 1 (block 5) 0)]

lemma agreementSafe_deliver {honest : Finset NodeID} {body : Hash → BlockHeader × List Bytes}
    (hbacked : ∀ i ∈ honest, getSealerByIndex sealers w.idx = i → w.blockHash ∈ signedHashes env (net i).log ∧
        env.fieldsHash w.height w.view w.idx w.timestamp ∈ signedHashes env (net i).log)
    (hsig : w.sig = [getSealerByIndex sealers w.idx, w.blockHash, 0])
    (hsent : ∀ q ∈ sentRequests (step env (net k) (deliver kind false w)).log,
      q.1 = .SignReqPacket ∨ q.1 = .CommitReqPacket → q.2.sig = [(net k).keyPair, q.2.blockHash, 0])
    (hview : (net k).view ≠ MAXVIEW)
    (hkinds : kind = .CommitReqPacket → ∀ i ∈ honest, getSealerByIndex sealers w.idx = i →
      SentCommit (net i).log w.blockHash) (hbody : ∀ b ∈ w.block.bind env.decodeBlock, b.header.number = w.height ∧
      (b.header.withoutRoots, b.transactions) = body w.blockHash) :
    AgreementSafe env sealers 1000 honest (fun _ key _ h => [key, h, 0]) body net (k, deliver kind false w) := by
  refine ⟨unforged_deliver hbacked, lockSafe_deliver hview, singleSignatures_deliver hsig hsent hview,
    fun p req hp hkind hdecode _ i hi hidx _ => ?_, fun r b htakes hb => ?_, ?_⟩
  · obtain ⟨rfl, rfl⟩ := decodeToMsg_deliver hp hdecode
    exact hkinds hkind i hi hidx
  · cases htakes.1 with
    | packet _ hdecode =>
      have hp : (deliver kind false w).1 = .handleMsg _ := rfl
      obtain ⟨hheight, hhash, hproposed⟩ := decodeToPrepare_deliver hp hdecode
      rw [hheight, hhash]
      exact hbody b (hproposed.symm.trans hb)
  · have := (net k).blockChain.number_nonneg
    exact this.trans (Int.le_add_one (le_rfl))

theorem agreement_of_agreementSafe_of_jointRound :
    (∀ k ∈ [12, 13], savedBlocks (run (netStep (step env)) network jointRound k).log ≠ []) ∧
      Agreement env {12, 13, 14} (run (netStep (step env)) network jointRound) := by
  refine ⟨by decide +kernel, agreement_of_agreementSafe env headerHash_injective headerHash_ne_zero
    (fun _ _ => nofun) verify_sign sealers ⟨by decide, by decide⟩ 1000 {12, 13, 14} (by decide)
    (fun _ key _ h => [key, h, 0]) (fun _ => ((block 5).header.withoutRoots, (block 5).transactions))
    (fun _ => ambient) (fun _ => fixedConfig_ambient) (fun k => { keyPair := k, blockChain := chain })
    (fun _ => none) _ ⟨?_, ?_, ?_, ?_, ?_, ?_, ?_, ?_, ?_, ?_, trivial⟩⟩ <;>
  exact agreementSafe_deliver (by decide +kernel) rfl (by decide +kernel) (by decide +kernel) (by decide +kernel)
    (by decide +kernel)

end Symbolic

end FiscoBcos
