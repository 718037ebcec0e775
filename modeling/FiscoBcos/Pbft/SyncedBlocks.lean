import FiscoBcos.Pbft.CachedVotes

/-!
# Signature lists of blocks

Block sync takes a block that passes `checkBlock`, which counts the entries of the signature list.
The list itself is made by the node that saves the block, from the commit requests in its cache.
-/

namespace FiscoBcos

open List Machine Bool

variable {s : PBFTEngine} {P : Block → Prop} {bl : Block} {idx : Nat}

def namedSealers (sealers : List NodeID) (b : Block) : List NodeID :=
  b.sigList.map fun q => getSealerByIndex sealers (q.1 % (MAXIDX + 1))

def signersOf (E : Env) (sealers : List NodeID) (b : Block) : List NodeID :=
  sealers.dedup.filter fun m => b.sigList.any fun q =>
    getSealerByIndex sealers (q.1 % (MAXIDX + 1)) == m && E.verify m q.2 (b.hash E)

lemma mem_of_getSealerByIndex_ne_zero {sealers : List NodeID}
    (h : getSealerByIndex sealers idx ≠ 0) : getSealerByIndex sealers idx ∈ sealers := by
  unfold getSealerByIndex at h ⊢
  by_cases hlt : idx < sealers.length
  · rw [getD_eq_getElem _ _ hlt]
    exact getElem_mem hlt
  · rw [getD_eq_default _ _ (not_lt.mp hlt)] at h
    exact absurd rfl h

section

variable {E : Env} {sealers : List NodeID}

lemma checkSignature_iff {h : Hash} {sig : Bytes} : checkSignature E sealers idx h sig = true ↔
      getSealerByIndex sealers idx ≠ 0 ∧ E.verify (getSealerByIndex sealers idx) sig h = true := by
  unfold checkSignature
  rw [and_eq_true, bne_iff_ne]

lemma signersOf_subset {b : Block} : signersOf E sealers b ⊆ (namedSealers sealers b).dedup := by
  intro m hm
  obtain ⟨q, hq, hname⟩ := any_eq_true.mp (mem_filter.mp hm).2
  rw [and_eq_true, beq_iff_eq] at hname
  exact mem_dedup.mpr (mem_map.mpr ⟨q, hq, hname.1⟩)

lemma subset_signersOf {b : Block}
    (h : ∀ q ∈ b.sigList, checkSignature E sealers (q.1 % (MAXIDX + 1)) (b.hash E) q.2 = true) :
    (namedSealers sealers b).dedup ⊆ signersOf E sealers b := by
  intro m hm
  obtain ⟨q, hq, rfl⟩ := mem_map.mp (mem_dedup.mp hm)
  obtain ⟨hne, hverify⟩ := checkSignature_iff.mp (h q hq)
  refine mem_filter.mpr ⟨mem_dedup.mpr (mem_of_getSealerByIndex_ne_zero hne), ?_⟩
  exact any_eq_true.mpr ⟨q, hq, by simp [hverify]⟩

end

namespace PBFTEngine

/-- What `checkBlock` tests. -/
structure Accepts (E : Env) (s : PBFTEngine) (b : Block) : Prop where
  number : s.blockChain.number < b.header.number
  sealerList : s.sealerList = b.header.sealerList
  sealer : getSealerByIndex s.sealerList (b.header.sealer % 2 ^ 64) ≠ 0
  size : s.minValidNodes ≤ b.sigList.length
  signed : ∀ q ∈ b.sigList, checkSignature E s.sealerList (q.1 % (MAXIDX + 1)) (b.hash E) q.2 = true
  limit : b.transactions.length ≤ s.maxBlockTransactions

variable {E : Env} {amb : Ambient} {s₀ a b : PBFTEngine} {e : Event} {sealers : List NodeID} {limit : Nat}

lemma resetConfig_blockChain (amb : Ambient) (s : PBFTEngine) : (s.resetConfig amb).blockChain = s.blockChain := by
  obtain ⟨_, h, -⟩ := resetConfig_cases amb s
  rw [h]

lemma checkBlock_iff (E : Env) (amb : Ambient) (s : PBFTEngine) (b : Block) :
    (s.checkBlock E amb b).1 = true ↔ Accepts E (s.resetConfig amb) b := by
  have hpos := s.blockChain.number_nonneg
  have hchain := resetConfig_blockChain amb s
  unfold checkBlock
  dsimp only
  constructor
  · intro h
    split_ifs at h with hnumber hgenesis hlist hsealer hsize hsigned hlimit
    · omega
    refine ⟨by rw [hchain]; omega, not_not.mp hlist, hsealer, not_lt.mp hsize, ?_, not_lt.mp hlimit⟩
    rw [not_eq_true, not_eq_false'] at hsigned
    exact all_eq_true.mp hsigned
  · intro h
    have hnumber := h.number
    rw [hchain] at hnumber
    rw [if_neg (not_le.mpr hnumber), if_neg (by omega), if_neg (not_not.mpr h.sealerList),
      if_neg h.sealer, if_neg (not_lt.mpr h.size), if_neg, if_neg (not_lt.mpr h.limit)]
    rw [all_eq_true.mpr h.signed]
    simp

/-- A block that `checkBlock` accepts carries signatures of a quorum of sealers exactly if the entries
of its signature list name a quorum of different sealers. -/
theorem checkBlock_quorum_iff (E : Env) (amb : Ambient) (s : PBFTEngine) (b : Block) :
    ((s.checkBlock E amb b).1 = true → (s.resetConfig amb).minValidNodes ≤
        (signersOf E (s.resetConfig amb).sealerList b).length) ↔
      (¬Accepts E (s.resetConfig amb) b ∨ (s.resetConfig amb).minValidNodes ≤
        (namedSealers (s.resetConfig amb).sealerList b).dedup.length) := by
  rw [checkBlock_iff]
  constructor
  · intro h
    by_cases haccepts : Accepts E (s.resetConfig amb) b
    · have hnodup : (signersOf E (s.resetConfig amb).sealerList b).Nodup :=
        (nodup_dedup _).filter _
      exact .inr ((h haccepts).trans (hnodup.subperm signersOf_subset).length_le)
    · exact .inl haccepts
  · rintro (hnot | hnamed) haccepts
    · exact absurd haccepts hnot
    · exact hnamed.trans ((nodup_dedup _).subperm (subset_signersOf haccepts.signed)).length_le

section

variable (E : Env) (sealers : List NodeID)

def SavesAccepted (limit : Nat) (log : List Action) : Prop :=
  ∀ t b r, .commitBlock t b r ∈ log → (∀ q ∈ b.sigList, checkSignature E t.sealers q.1 (b.hash E) q.2 = true) ∧
      ∀ (peer : PBFTEngine) (amb : Ambient), FixedConfig sealers limit amb →
        peer.blockChain.number < b.header.number → (peer.checkBlock E amb b).1 = true

/-- Commit requests kept for later carry good signatures, and proposed blocks name a sealer as their
maker. -/
structure WellSigned (limit : Nat) (s : PBFTEngine) (e : Event × Ambient) : Prop where
  config : FixedConfig sealers limit e.2
  commits : ∀ p req, e.1 = .handleMsg p → p.packetId = .CommitReqPacket → decodeToMsg p = some req →
    s.checkReq E e.2 req = .FUTURE → checkSignature E sealers req.idx req.blockHash req.sig = true
  sealer : ∀ r b, Takes E s e r → proposedBlock E r = some b → getSealerByIndex sealers (b.header.sealer % 2 ^ 64) ≠ 0

def SignedCommit (r : PBFTMsg) : Prop :=
  checkSignature E sealers r.idx r.blockHash r.sig = true ∧ r.idx ≤ MAXIDX

end

def PreparedBlock (P : Block → Prop) (s : PBFTEngine) : Prop :=
  s.reqCache.proposal ≠ none → ∀ b, s.reqCache.prepareCache.pBlock = some b → P b

lemma PreparedBlock.kept (hP : ∀ b b' : Block, b'.header = b.header → b'.transactions = b.transactions → P b → P b')
    (ha : PreparedBlock P a) (hkept : Kept a.reqCache b.reqCache) : PreparedBlock P b := by
  intro hset bl hbl
  cases hkept with
  | cleared r hcache hproposal => exact absurd hproposal hset
  | same o hcache hblock hproposal =>
    rw [hcache] at hbl
    subst hbl
    obtain ⟨bl', hbl', heq⟩ := Option.map_eq_some_iff.mp hblock.symm
    exact hP bl' bl (Prod.mk.inj heq).1.symm (Prod.mk.inj heq).2.symm (ha (hproposal ▸ hset) bl' hbl')

lemma PreparedBlock.countAndVote (hs : PreparedBlock P s) : PreparedBlock P (s.countAndVote E amb) := by
  obtain ⟨m, -, hc | ⟨-, -, hc⟩⟩ := countAndVote_cases
  · rw [hc]
    exact hs
  · rw [hc, PreparedBlock, lockAndVote_reqCache]
    exact hs

lemma SmallStep.preparedBlock (h : SmallStep E amb s₀ e a b)
    (hP : ∀ b b' : Block, b'.header = b.header → b'.transactions = b.transactions → P b → P b')
    (hnew : ∀ req bl result context, Takes E s₀ (e, amb) req → Execution E amb s₀ req bl result context → P result)
    (ha : PreparedBlock P a) : PreparedBlock P b := by
  cases h.effect with
  | prepare full req bl result context ht hready hexec =>
    apply PreparedBlock.countAndVote
    intro _ b' hb'
    cases hb'
    exact hnew req bl result context ht hexec
  | signVote req => exact PreparedBlock.countAndVote (s := { a with reqCache := a.reqCache.addSignReq req }) ha
  | quiet _ _ _ hkept => exact ha.kept hP hkept

structure Presentable (sealers : List NodeID) (limit : Nat) (b : Block) : Prop where
  sealerList : b.header.sealerList = sealers
  sealer : getSealerByIndex sealers (b.header.sealer % 2 ^ 64) ≠ 0
  limit : b.transactions.length ≤ limit

lemma Execution.presentable {req : PrepareReq} {result : Block} {context : Bool}
    (h : Execution E amb s₀ req bl result context) (hconf : Configured sealers limit s₀)
    (hsealer : getSealerByIndex sealers (bl.header.sealer % 2 ^ 64) ≠ 0) : Presentable sealers limit result := by
  have hvalid := h.valid
  simp only [checkBlockValid, and_eq_true, decide_eq_true_eq, beq_iff_eq] at hvalid
  obtain ⟨⟨⟨⟨⟨hlimit, -⟩, -⟩, -⟩, -⟩, hlist⟩ := hvalid
  rw [hconf.maxBlockTransactions] at hlimit
  rw [hconf.sealerList] at hlist
  obtain ⟨header, hresult, hroots⟩ :=
    executeBlock_block
  rw [h.result] at hresult
  dsimp only at hresult
  have hsealers : header.withoutRoots.sealerList = bl.header.withoutRoots.sealerList := by rw [hroots]
  have hmaker : header.withoutRoots.sealer = bl.header.withoutRoots.sealer := by rw [hroots]
  rw [hresult]
  refine ⟨hsealers.trans hlist.symm, ?_, hlimit⟩
  change getSealerByIndex sealers (header.withoutRoots.sealer % 2 ^ 64) ≠ 0
  rw [hmaker]
  exact hsealer

lemma signedBlock_sigList (bl : Block) (hpos : 1 ≤ s.minValidNodes)
    (hcount : Counted s.reqCache.commitCache s.reqCache.prepareCache.blockHash s.minValidNodes) :
    (s.signedBlock bl).sigList = (s.reqCache.commitCache.bucket s.reqCache.prepareCache.blockHash).map
          (fun r => (r.idx, r.sig)) ∧
      s.minValidNodes ≤ (s.reqCache.commitCache.bucket s.reqCache.prepareCache.blockHash).length := by
  obtain ⟨copy, hsub, hlen, -⟩ := hcount
  have hle := hlen.trans hsub.length_le
  refine ⟨?_, hle⟩
  unfold signedBlock PBFTReqCache.generateAndSetSigList
  unfold BucketMap.bucket at hle ⊢
  cases hfind : s.reqCache.commitCache.find s.reqCache.prepareCache.blockHash with
  | none =>
    rw [hfind] at hle
    exact absurd (hpos.trans hle) (by simp)
  | some =>
    rw [hfind, Option.getD_some] at hle
    dsimp only
    rw [if_neg (not_lt.mpr hle)]
    rfl

lemma accepted_of_counted (hsize : 1 ≤ sealers.length ∧ sealers.length ≤ MAXIDX) (hconf : Configured sealers limit s)
    (hcommits : s.reqCache.commitCache.All (SignedCommit E sealers))
    (hhash : E.headerHash bl.header = s.reqCache.prepareCache.blockHash) (hblock : Presentable sealers limit bl)
    (hcount : Counted s.reqCache.commitCache s.reqCache.prepareCache.blockHash s.minValidNodes) :
    (∀ q ∈ (s.signedBlock bl).sigList,
        checkSignature E s.commitTally.sealers q.1 ((s.signedBlock bl).hash E) q.2 = true) ∧
      ∀ (peer : PBFTEngine) (amb : Ambient), FixedConfig sealers limit amb →
        peer.blockChain.number < (s.signedBlock bl).header.number →
          (peer.checkBlock E amb (s.signedBlock bl)).1 = true := by
  obtain ⟨hlist, hlen⟩ := signedBlock_sigList bl (hconf.minValidNodes_bounds hsize).1 hcount
  have hheader := signedBlock_header s bl
  have htransactions := signedBlock_transactions s bl
  have hsigned : (s.signedBlock bl).hash E = s.reqCache.prepareCache.blockHash := by
    unfold Block.hash
    rw [hheader, hhash]
  have hentries : ∀ q ∈ (s.signedBlock bl).sigList,
      checkSignature E sealers q.1 ((s.signedBlock bl).hash E) q.2 = true ∧ q.1 ≤ MAXIDX := by
    intro q hq
    rw [hlist] at hq
    obtain ⟨r, hr, rfl⟩ := mem_map.mp hq
    have hkey := BucketMap.key_of_mem_bucket hr
    rw [hsigned, ← hkey]
    exact hcommits _ r hr
  have hcommitted : s.commitTally.sealers = sealers := hconf.sealerList
  refine ⟨fun q hq => by rw [hcommitted]; exact (hentries q hq).1, fun peer amb hamb hnumber => ?_⟩
  have hpeer : Configured sealers limit (peer.resetConfig amb) := by
    obtain ⟨_, -, hc⟩ := resetConfig_cases amb peer
    rw [← hamb.sealers, ← hamb.limit]
    exact hc hamb.nonempty
  rw [checkBlock_iff]
  refine ⟨?_, ?_, ?_, ?_, fun q hq => ?_, ?_⟩
  · rw [resetConfig_blockChain]
    exact hnumber
  · rw [hheader, hpeer.sealerList, hblock.sealerList]
  · rw [hheader, hpeer.sealerList]
    exact hblock.sealer
  · rw [hlist, length_map, hpeer.minValidNodes, ← hconf.minValidNodes]
    exact hlen
  · obtain ⟨hgood, hidx⟩ := hentries q hq
    rw [hpeer.sealerList, Nat.mod_eq_of_lt (by omega)]
    exact hgood
  · rw [htransactions, hpeer.maxBlockTransactions]
    exact hblock.limit

structure Saving (E : Env) (sealers : List NodeID) (limit : Nat) (s : PBFTEngine) : Prop where
  heights : Heights s
  configured : Configured sealers limit s
  prepared : Prepared E s
  cached : Cached (fun _ => True) (SignedCommit E sealers) s.reqCache
  block : PreparedBlock (Presentable sealers limit) s
  saved : SavesAccepted E sealers limit s.log

lemma savesAccepted_smallStep (hsize : 1 ≤ sealers.length ∧ sealers.length ≤ MAXIDX)
    (h : SmallStep E amb s₀ e a b) (ha : Saving E sealers limit a) : SavesAccepted E sealers limit b.log := by
  intro t bl r hmem
  rcases h.tally hmem with hold | hnone | hnew
  · exact ha.saved t bl r hold
  · cases hnone
  · cases hnew with
    | @save m m' bl _ hcommits hview hheight hblock hcount =>
      have hset := ha.prepared.proposal_ne_none_of_lt ha.heights hheight
      obtain ⟨p, hp⟩ := Option.ne_none_iff_exists'.mp hset
      obtain ⟨bl', hbl', hhash⟩ := ha.prepared.block p hp
      cases hblock.symm.trans hbl'
      have hconf : Configured sealers limit ((a.withSigns m).withCommits m') :=
        ha.configured.of_frame ((frame_withSigns a m).trans (frame_withCommits _ m'))
      exact accepted_of_counted (s := (a.withSigns m).withCommits m') hsize hconf
        (hcommits.all (fun _ _ _ hr => hr) ha.cached.2) hhash (ha.block hset bl hblock) hcount

section

variable (hverify : ∀ key h n, E.verify key (E.sign key h n) h = true) (hsealers : Sealers sealers)

include hverify hsealers

lemma signedCommit_own {st : Stamp} (hconf : Configured sealers limit s) (hidx : s.idx ≠ MAXIDX) :
    SignedCommit E sealers (s.ownVote E st) := by
  obtain ⟨hkey, hne⟩ := hconf.own_key hsealers hidx
  have hfits : s.idx ≤ MAXIDX := by
    rw [hconf.idx]
    unfold ownIdx
    split
    · exact Nat.le_of_lt_succ (Nat.mod_lt _ (Nat.succ_pos _))
    · exact le_rfl
  refine ⟨checkSignature_iff.mpr ?_, hfits⟩
  change getSealerByIndex sealers s.idx ≠ 0 ∧ E.verify (getSealerByIndex sealers s.idx)
    (E.sign s.keyPair s.reqCache.prepareCache.blockHash st.nonce) _ = true
  rw [hkey]
  exact ⟨hne, hverify _ _ _⟩

lemma cached_signedCommit_smallStep (hsigned : WellSigned E sealers limit s₀ (e, amb))
    (hconf₀ : Configured sealers limit s₀) (hconf : Configured sealers limit a) (h : SmallStep E amb s₀ e a b)
    (ha : Cached (fun _ => True) (SignedCommit E sealers) a.reqCache) :
    Cached (fun _ => True) (SignedCommit E sealers) b.reqCache := by
  refine h.cached hconf₀ (fun _ _ _ _ => trivial) (fun _ _ _ hr => hr) (fun _ _ => trivial) (fun r hr => ?_) ha
  cases hr with
  | own hframe hidx =>
    exact signedCommit_own hverify hsealers (hconf.of_frame hframe) (hframe.idx ▸ hidx)
  | checked hs he hkind hdecode hv =>
    have hsign := checkSign_of_valid hconf hv
    unfold checkSign at hsign
    rw [and_eq_true, and_eq_true] at hsign
    refine ⟨?_, (decodeToMsg_flags hdecode).2.2.2⟩
    unfold checkSignature
    rw [and_eq_true]
    exact ⟨hsign.1, hsign.2.1⟩
  | @future p req hs he hkind hdecode hv =>
    subst hs
    exact ⟨hsigned.commits p req he hkind hdecode hv, (decodeToMsg_flags hdecode).2.2.2⟩

lemma saving_step (s : PBFTEngine) (e : Event × Ambient) (hsigned : WellSigned E sealers limit s e)
    (hs : Saving E sealers limit s) : Saving E sealers limit (step E s e) := by
  have hsize : 1 ≤ sealers.length ∧ sealers.length ≤ MAXIDX :=
    ⟨hsigned.config.length_pos, hsealers.size⟩
  refine invariant_step (Saving E sealers limit) (fun a b h ha => ?_) hs
  refine ⟨heights_smallStep h ha.heights, configured_smallStep hsigned.config h ha.configured,
    prepared_smallStep h ha.prepared,
    cached_signedCommit_smallStep hverify hsealers hsigned hs.configured ha.configured h ha.cached,
    h.preparedBlock ?_ ?_ ha.block, savesAccepted_smallStep hsize h ha⟩
  · intro bl bl' hheader htransactions hbl
    exact ⟨by rw [hheader]; exact hbl.sealerList, by rw [hheader]; exact hbl.sealer,
      by rw [htransactions]; exact hbl.limit⟩
  · intro req bl result context ht hexec
    exact hexec.presentable hs.configured (hsigned.sealer req bl ht hexec.proposed)

end

/-- In every run in which the commit requests kept for later are well signed and the proposed blocks
name a sealer, the blocks a node saves are accepted by its peers. -/
theorem savesAccepted_of_wellSigned (E : Env)
    (hverify : ∀ key h n, E.verify key (E.sign key h n) h = true) (sealers : List NodeID)
    (hsealers : Sealers sealers) (limit : Nat) (amb : Ambient) (hamb : FixedConfig sealers limit amb)
    (cfg : NodeConfig) (backup : Option WireMsg) (es : List (Event × Ambient))
    (hrun : Along (step E) (WellSigned E sealers limit) (start E amb cfg backup) es) :
    SavesAccepted E sealers limit (run (step E) (start E amb cfg backup) es).log := by
  have hfresh := fresh_start E amb cfg backup
  have hstart : Saving E sealers limit (start E amb cfg backup) := by
    refine ⟨heights_start E amb cfg backup, configured_start hamb, hfresh.prepared,
      hfresh.cached, fun hset => absurd hfresh.proposal hset, ?_⟩
    rw [start_log]
    intro t b r hmem
    cases mem_singleton.mp hmem
  exact (invariant_run (Saving E sealers limit) (saving_step hverify hsealers) hstart hrun).saved

end PBFTEngine

namespace Symbolic

open PBFTEngine

def repeatedlySigned : Block :=
  { block 5 with sigList := replicate 3 (0, env.sign 11 ((block 5).hash env) 0) }

theorem not_quorum_of_repeatedlySigned : ¬(((node 12).checkBlock env ambient repeatedlySigned).1 = true →
      ((node 12).resetConfig ambient).minValidNodes ≤
        (signersOf env ((node 12).resetConfig ambient).sealerList repeatedlySigned).length) := by
  decide +kernel

def badlySignedRound : List (Event × Ambient) :=
  [deliver .CommitReqPacket false { wire 0 0 (executedHash (block 5)) 0 none with sig := [3] },
    propose false (block 5), voteFor .SignReqPacket 0 (block 5) 0,
    voteFor .SignReqPacket 2 (block 5) 0, voteFor .CommitReqPacket 0 (block 5) 0,
    voteFor .CommitReqPacket 2 (block 5) 0]

theorem not_savesAccepted_of_badlySigned :
    ¬SavesAccepted env sealers 1000 (run (step env) (node 12) badlySignedRound).log := by
  intro h
  have hbad : (run (step env) (node 12) badlySignedRound).log.any (fun x =>
      match x with
      | .commitBlock t b _ => b.sigList.any fun q =>
          !checkSignature env t.sealers q.1 (b.hash env) q.2
      | _ => false) = true := by
    decide +kernel
  obtain ⟨x, hx, hentry⟩ := any_eq_true.mp hbad
  cases x with
  | commitBlock t b r =>
    obtain ⟨q, hq, hbad⟩ := any_eq_true.mp hentry
    rw [(h t b r hx).1 q hq] at hbad
    cases hbad
  | _ => cases hentry

lemma wellSigned_deliver {kind : PacketType} {flag : Bool} {w : WireMsg}
    (hsig : checkSignature env sealers w.idx w.blockHash w.sig = true) (hblock : (w.block.bind env.decodeBlock).all
      (fun b => getSealerByIndex sealers (b.header.sealer % 2 ^ 64) != 0) = true) :
    WellSigned env sealers 1000 s (deliver kind flag w) := by
  refine ⟨fixedConfig_ambient, fun p req hp _ hdecode _ => ?_, fun r b ht hb => ?_⟩
  · obtain ⟨-, rfl⟩ := decodeToMsg_deliver hp hdecode
    exact hsig
  exact bne_iff_ne.mp (of_all_deliver hblock ht.1 hb)

theorem savesAccepted_of_wellSigned_of_round : SavesAccepted env sealers 1000 (run (step env) (node 12)
      [propose false (block 5), voteFor .SignReqPacket 0 (block 5) 0,
        voteFor .SignReqPacket 2 (block 5) 0, voteFor .CommitReqPacket 0 (block 5) 0,
        voteFor .CommitReqPacket 2 (block 5) 0]).log :=
  savesAccepted_of_wellSigned env verify_sign sealers ⟨by decide, by decide⟩ 1000 ambient
    fixedConfig_ambient { keyPair := 12, blockChain := chain } none _
    ⟨wellSigned_deliver (by decide +kernel) (by decide +kernel),
      wellSigned_deliver (by decide +kernel) (by decide +kernel),
      wellSigned_deliver (by decide +kernel) (by decide +kernel),
      wellSigned_deliver (by decide +kernel) (by decide +kernel),
      wellSigned_deliver (by decide +kernel) (by decide +kernel), trivial⟩

end Symbolic

end FiscoBcos
