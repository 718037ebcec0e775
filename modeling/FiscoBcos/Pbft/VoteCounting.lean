import FiscoBcos.Pbft.CachedVotes

/-!
# Counting votes

The counts of sign and commit requests go by signature bytes. They are counts of sealers when no
sealer gives out two signatures of one hash.
-/

namespace FiscoBcos

open Machine PBFTMsg

def Tally.valid (E : Env) (t : Tally) : List PBFTMsg :=
  t.votes.filter fun r => r.view == t.prepared.view && checkSign E t.sealers r

def Tally.Quorum (E : Env) (t : Tally) : Prop :=
  t.minValidNodes ≤ ((t.valid E).map idx).dedup.length

/-- Every count that went through was of a quorum of sealers. -/
def CountsSealers (E : Env) (log : List Action) : Prop :=
  ∀ x ∈ log, ∀ t ∈ x.tally, t.Quorum E

instance (E : Env) (log : List Action) : Decidable (CountsSealers E log) := by
  unfold CountsSealers Tally.Quorum
  infer_instance

namespace PBFTEngine

/-- A request that counts without a further check is valid, and a valid one has the signature `canon` gives its sealer. -/
def CanonicalVote (E : Env) (sealers : List NodeID) (canon : NodeID → Int → Hash → Bytes) (r : PBFTMsg) : Prop :=
  (r.Vouched → checkSign E sealers r = true) ∧
    (checkSign E sealers r = true → r.sig = canon (getSealerByIndex sealers r.idx) r.view r.blockHash)

/-- Nobody votes with two signatures: the votes of one kind in one view for one hash that the node takes from one
sealer, and those it sends, have one signature. The configuration stays the same, and the view is not the one that marks
a cleared request. -/
structure SingleSignatures (E : Env) (sealers : List NodeID) (limit : Nat)
    (canon : PacketType → NodeID → Int → Hash → Bytes) (s : PBFTEngine) (e : Event × Ambient) : Prop where
  config : FixedConfig sealers limit e.2
  delivered : ∀ p req, e.1 = .handleMsg p → p.packetId = .SignReqPacket ∨ p.packetId = .CommitReqPacket →
    decodeToMsg p = some req → s.checkReq E e.2 req ≠ .INVALID → checkSign E sealers req = true →
      req.sig = canon p.packetId (getSealerByIndex sealers req.idx) req.view req.blockHash
  sent : ∀ q ∈ sentRequests (step E s e).log, q.1 = .SignReqPacket ∨ q.1 = .CommitReqPacket →
    q.2.sig = canon q.1 s.keyPair q.2.view q.2.blockHash
  view : s.view ≠ MAXVIEW

variable {E : Env} {amb : Ambient} {s₀ a b : PBFTEngine} {e : Event} {sealers : List NodeID}
  {limit : Nat}

section

variable {canon : NodeID → Int → Hash → Bytes}

lemma quorum_of_counted {m : ReqMap} {t : Tally} (hm : m.All (CanonicalVote E sealers canon))
    (hviews : ∀ r ∈ m.bucket t.prepared.blockHash, r.view = t.prepared.view)
    (hcount : Counted m t.prepared.blockHash t.minValidNodes) (hsealers : t.sealers = sealers)
    (hvotes : t.votes = m.bucket t.prepared.blockHash) : t.Quorum E := by
  obtain ⟨copy, hsub, hlen, hvouched⟩ := hcount
  have hvalid : ∀ r ∈ copy, checkSign E sealers r = true := fun r hr =>
    (hm _ r (hsub.subset hr)).1 (hvouched r hr)
  have hone : ∀ r ∈ copy, ∀ r' ∈ copy, r.idx = r'.idx → r.sig = r'.sig := by
    intro r hr r' hr' hidx
    have hkey := BucketMap.key_of_mem_bucket (hsub.subset hr)
    have hkey' := BucketMap.key_of_mem_bucket (hsub.subset hr')
    rw [(hm _ r (hsub.subset hr)).2 (hvalid r hr), (hm _ r' (hsub.subset hr')).2 (hvalid r' hr'), hidx, hkey, hkey',
      hviews r (hsub.subset hr), hviews r' (hsub.subset hr')]
  have howners := Quorum.card_owners_eq_length ((hsub.map sig).nodup m.nodup_bucket) hone
  have hincl : (copy.map PBFTMsg.idx).toFinset ⊆ ((t.valid E).map PBFTMsg.idx).toFinset := by
    intro i hi
    rw [List.mem_toFinset, List.mem_map] at hi ⊢
    obtain ⟨r, hr, rfl⟩ := hi
    refine ⟨r, ?_, rfl⟩
    unfold Tally.valid
    rw [hvotes, hsealers, List.mem_filter]
    exact ⟨hsub.subset hr, by simp [hviews r (hsub.subset hr), hvalid r hr]⟩
  have hcard := Finset.card_le_card hincl
  unfold Tally.Quorum
  rw [← List.card_toFinset]
  omega

lemma canonicalVote_checked (hconf : Configured sealers limit a) (r : PBFTMsg) (_ : r.isFuture = true)
    (hcheck : checkSign E a.sealerList r = true) (h : CanonicalVote E sealers canon r) :
    CanonicalVote E sealers canon r.checked := by
  rw [hconf.sealerList] at hcheck
  exact ⟨fun _ => hcheck, h.2⟩

lemma canonicalVote_asFuture {r : PBFTMsg}
    (h : checkSign E sealers r = true → r.sig = canon (getSealerByIndex sealers r.idx) r.view r.blockHash) :
    CanonicalVote E sealers canon (asFuture r) := by
  refine ⟨fun hvouched => ?_, h⟩
  rcases hvouched with hfuture | hchecked
  · cases hfuture
  · cases hchecked

end

variable {canon : PacketType → NodeID → Int → Hash → Bytes}

/-- The cached votes have the signatures `canon` gives, and the counts logged so far were of sealers. -/
structure Counting (E : Env) (sealers : List NodeID) (canon : PacketType → NodeID → Int → Hash → Bytes)
    (s : PBFTEngine) : Prop where
  prepared : Prepared E s
  cached : Cached (CanonicalVote E sealers (canon .SignReqPacket)) (CanonicalVote E sealers (canon .CommitReqPacket)) s.reqCache
  views : OfView s
  counted : CountsSealers E s.log

lemma countsSealers_smallStep (hmax : s₀.view ≠ MAXVIEW) (hheights : Heights a) (hconf : Configured sealers limit a)
    (hconf' : Configured sealers limit b) (h : SmallStep E amb s₀ e a b) (ha : Counting E sealers canon a)
    (hprep : Prepared E b) (hcached : Cached (CanonicalVote E sealers (canon .SignReqPacket)) (CanonicalVote E sealers (canon .CommitReqPacket)) b.reqCache)
    (hviews : OfView b) : CountsSealers E b.log := by
  intro x hx t ht
  rcases h.tally hx with hold | hnone | hnew
  · exact ha.counted x hold t ht
  · rw [hnone] at ht
    cases ht
  · cases hnew with
    | lock hframe hview hcount =>
      cases ht
      have hset := hprep.proposal_ne_none hview (hframe.view ▸ hmax)
      exact quorum_of_counted hcached.1 (hviews hset).1 hcount hconf'.sealerList rfl
    | @save m m' bl result hcommits hview hheight hblock hcount =>
      cases ht
      have hset := ha.prepared.proposal_ne_none_of_lt hheights hheight
      exact quorum_of_counted (hcommits.all (canonicalVote_checked hconf) ha.cached.2)
        (recounted_views hcommits (ha.views hset).2) hcount hconf.sealerList rfl

lemma counting_start {cfg : NodeConfig} {backup : Option WireMsg} :
    Counting E sealers canon (start E amb cfg backup) := by
  have hfresh := fresh_start E amb cfg backup
  refine ⟨hfresh.prepared, hfresh.cached, fun hset => absurd hfresh.proposal hset, ?_⟩
  rw [start_log]
  intro x hx
  obtain rfl := List.mem_singleton.mp hx
  exact fun t ht => (nomatch ht)

section

variable (hverify : ∀ key h n, E.verify key (E.sign key h n) h = true) (hsealers : Sealers sealers)

include hverify hsealers

lemma canonicalVote_own {s : PBFTEngine} {height view : Int} {h : Hash} {st : Stamp} {kind : PacketType}
    (hconf : Configured sealers limit s) (hidx : s.idx ≠ MAXIDX)
    (hsig : (signed E s.keyPair height view s.idx h st).sig = canon kind s.keyPair view h) :
    CanonicalVote E sealers (canon kind) (signed E s.keyPair height view s.idx h st) := by
  obtain ⟨hkey, hne⟩ := hconf.own_key hsealers hidx
  refine ⟨fun _ => checkSign_signed hverify hkey hne, fun _ => ?_⟩
  have hidx : (signed E s.keyPair height view s.idx h st).idx = s.idx := rfl
  rw [hidx, hkey]
  exact hsig

section

variable (hsingle : SingleSignatures E sealers limit canon s₀ (e, amb)) (hconf₀ : Configured sealers limit s₀)

include hsingle hconf₀

lemma cached_canonical_smallStep (hconf : Configured sealers limit a) (hkey : a.keyPair = s₀.keyPair)
    (hlog : b.log ⊆ (step E s₀ (e, amb)).log) (h : SmallStep E amb s₀ e a b)
    (ha : Cached (CanonicalVote E sealers (canon .SignReqPacket)) (CanonicalVote E sealers (canon .CommitReqPacket)) a.reqCache) :
    Cached (CanonicalVote E sealers (canon .SignReqPacket)) (CanonicalVote E sealers (canon .CommitReqPacket)) b.reqCache := by
  refine h.cached hconf₀ (canonicalVote_checked hconf) (canonicalVote_checked hconf) (fun r hr => ?_) (fun r hr => ?_) ha
  · cases hr with
    | own ht hready _ hmem =>
      refine canonicalVote_own hverify hsealers hconf ?_ ?_
      · rw [hready.frame.idx]
        exact idx_ne_of_getLeader hconf₀ (validPrepare_of_isValidPrepare ht.2).leader
      · have hsent := hsingle.sent _ (List.mem_filterMap.mpr ⟨_, hlog hmem, rfl⟩) (.inl rfl)
        rwa [← hkey] at hsent
    | checked hs he hkind hdecode hv =>
      subst hs
      exact ⟨fun _ => checkSign_of_valid hconf hv,
        hkind ▸ hsingle.delivered _ _ he (.inl hkind) hdecode (by simp [hv])⟩
    | future hs he hkind hdecode hv =>
      subst hs
      exact canonicalVote_asFuture (hkind ▸ hsingle.delivered _ _ he (.inl hkind) hdecode (by simp [hv]))
  · cases hr with
    | @own t hframe hidx _ hmem =>
      refine canonicalVote_own hverify hsealers (hconf.of_frame hframe) (hframe.idx ▸ hidx) ?_
      have hsent := hsingle.sent _ (List.mem_filterMap.mpr ⟨_, hlog hmem, rfl⟩) (.inr rfl)
      rwa [← hkey, ← hframe.keyPair] at hsent
    | checked hs he hkind hdecode hv =>
      subst hs
      exact ⟨fun _ => checkSign_of_valid hconf hv,
        hkind ▸ hsingle.delivered _ _ he (.inr hkind) hdecode (by simp [hv])⟩
    | future hs he hkind hdecode hv =>
      subst hs
      exact canonicalVote_asFuture (hkind ▸ hsingle.delivered _ _ he (.inr hkind) hdecode (by simp [hv]))

lemma counting_smallStep (hkey : a.keyPair = s₀.keyPair) (hlog : b.log ⊆ (step E s₀ (e, amb)).log)
    (h : SmallStep E amb s₀ e a b) (hheights : Heights a) (hconf : Configured sealers limit a)
    (ha : Counting E sealers canon a) : Counting E sealers canon b := by
  have hconf' := configured_smallStep hsingle.config h hconf
  have hprep := prepared_smallStep h ha.prepared
  have hcached := cached_canonical_smallStep hverify hsealers hsingle hconf₀ hconf hkey hlog h ha.cached
  have hviews := ofView_smallStep h ha.views
  exact ⟨hprep, hcached, hviews, countsSealers_smallStep hsingle.view hheights hconf hconf' h ha hprep hcached hviews⟩

end

lemma counting_step (s : PBFTEngine) (e : Event × Ambient) (hsingle : SingleSignatures E sealers limit canon s e)
    (hs : Heights s ∧ Configured sealers limit s ∧ Counting E sealers canon s) :
    Heights (step E s e) ∧ Configured sealers limit (step E s e) ∧ Counting E sealers canon (step E s e) := by
  have hinv := invariant_step_within (fun t => t.keyPair = s.keyPair ∧ Heights t ∧ Configured sealers limit t ∧
      Counting E sealers canon t)
    (fun a b h hlog hab => by
      obtain ⟨hkey, hheights, hconf, ha⟩ := hab
      exact ⟨h.keyPair.trans hkey, heights_smallStep h hheights, configured_smallStep hsingle.config h hconf,
        counting_smallStep hverify hsealers hsingle hs.2.1 hkey hlog h hheights hconf ha⟩)
    (e := e) ⟨rfl, hs⟩
  exact hinv.2

end

/-- In every run in which the votes of one kind, view and hash by one sealer have one signature, each lock and each saved block of a
node rests on the valid votes of a quorum of different sealers. -/
theorem countsSealers_of_singleSignatures (E : Env)
    (hverify : ∀ key h n, E.verify key (E.sign key h n) h = true) (sealers : List NodeID)
    (hsealers : Sealers sealers) (limit : Nat)
    (canon : PacketType → NodeID → Int → Hash → Bytes) (amb : Ambient)
    (hamb : FixedConfig sealers limit amb) (cfg : NodeConfig) (backup : Option WireMsg)
    (es : List (Event × Ambient))
    (hrun : Along (step E) (SingleSignatures E sealers limit canon) (start E amb cfg backup) es) :
    CountsSealers E (run (step E) (start E amb cfg backup) es).log := by
  have hinv := invariant_run (fun s => Heights s ∧ Configured sealers limit s ∧ Counting E sealers canon s)
    (counting_step hverify hsealers)
    ⟨heights_start E amb cfg backup, configured_start hamb, counting_start⟩ hrun
  exact hinv.2.2.counted

end PBFTEngine

namespace Symbolic

open PBFTEngine

/-- Two signatures of one sealer pass for two sealers. -/
theorem not_countsSealers_of_two_signatures : ¬CountsSealers env (run (step env) (node 12)
      [propose false (block 5), voteFor .SignReqPacket 0 (block 5) 1, voteFor .SignReqPacket 0 (block 5) 2]).log := by
  decide +kernel

variable {s : PBFTEngine} {kind : PacketType} {flag : Bool} {w : WireMsg}

lemma singleSignatures_deliver {canon : PacketType → NodeID → Int → Hash → Bytes}
    (hsig : w.sig = canon kind (getSealerByIndex sealers w.idx) w.view w.blockHash)
    (hsent : ∀ q ∈ sentRequests (step env s (deliver kind flag w)).log, q.1 = .SignReqPacket ∨ q.1 = .CommitReqPacket →
      q.2.sig = canon q.1 s.keyPair q.2.view q.2.blockHash) (hview : s.view ≠ MAXVIEW) :
    SingleSignatures env sealers 1000 canon s (deliver kind flag w) := by
  refine ⟨fixedConfig_ambient, fun p req hp _ hdecode _ _ => ?_, hsent, hview⟩
  obtain ⟨rfl, rfl⟩ := decodeToMsg_deliver hp hdecode
  exact hsig

/-- The signatures of a round: a sealer's commit request has another one than its sign request. -/
def roundSignatures (kind : PacketType) (key : NodeID) (_view : Int) (h : Hash) : Bytes :=
  [key, h, if kind = .CommitReqPacket ∧ key ≠ 12 then 1 else 0]

theorem countsSealers_of_singleSignatures_of_round : CountsSealers env (run (step env) (node 12)
      [propose false (block 5), voteFor .SignReqPacket 0 (block 5) 0,
        voteFor .SignReqPacket 2 (block 5) 0, voteFor .CommitReqPacket 0 (block 5) 1,
        voteFor .CommitReqPacket 2 (block 5) 1]).log := by
  refine countsSealers_of_singleSignatures env verify_sign sealers ⟨by decide, by decide⟩ 1000
    roundSignatures ambient fixedConfig_ambient { keyPair := 12, blockChain := chain } none
    _ ⟨?_, ?_, ?_, ?_, ?_, trivial⟩ <;>
  exact singleSignatures_deliver rfl (by decide +kernel) (by decide +kernel)

end Symbolic

end FiscoBcos
