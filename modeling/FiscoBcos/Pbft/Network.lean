import FiscoBcos.Pbft.CachedVotes
import FiscoBcos.Pbft.ViewSteps

/-!
# A network of engines

The engines of the honest sealers, indexed by their keys. The other sealers may send anything, and the network may send
again, under any packet type, what it has seen.
-/

namespace FiscoBcos

open Machine Function List

variable {k : NodeID}

def signedHashes (E : Env) (log : List Action) : List Hash :=
  (sentRequests log).flatMap fun q => [q.2.blockHash, q.2.fieldsWithoutBlock E]

def PBFTReqCache.Holds (c : PBFTReqCache) (r : PBFTMsg) : PacketType → Prop
  | .PrepareReqPacket => False
  | .SignReqPacket => r ∈ c.signCache.bucket r.blockHash
  | .CommitReqPacket => r ∈ c.commitCache.bucket r.blockHash
  | .ViewChangeReqPacket => (∃ q ∈ c.recvViewChangeReq, r ∈ q.2) ∨ r ∈ c.latestViewChangeReqCache

namespace PBFTEngine

variable (net : NodeID → PBFTEngine) (m : NodeID × Event × Ambient) {log' : List Action} {x : Action}

def KindsKept (sealers : List NodeID) (honest : Finset NodeID) (net : NodeID → PBFTEngine) : Prop :=
  ∀ j ∈ honest, ∀ kind r, (net j).reqCache.Holds r kind → ∀ i ∈ honest, getSealerByIndex sealers r.idx = i →
      ∃ q ∈ sentRequests (net i).log, q.1 = kind ∧
        q.2.height = r.height ∧ q.2.view = r.view ∧ q.2.blockHash = r.blockHash

section

variable (E : Env) (sealers : List NodeID)

def HashesSigned (honest : Finset NodeID) (net : NodeID → PBFTEngine) : Prop :=
  ∀ j ∈ honest, ∀ kind r, (net j).reqCache.Holds r kind → kind = .ViewChangeReqPacket ∨ r.Vouched →
      ∀ i ∈ honest, getSealerByIndex sealers r.idx = i → r.blockHash ∈ signedHashes E (net i).log ∧
          r.fieldsWithoutBlock E ∈ signedHashes E (net i).log

/-- A signature under the key of the honest sealer that the request names is one that this sealer has made. -/
def Backed (honest : Finset NodeID) (logs : NodeID → List Action) (r : PBFTMsg) : Prop :=
  ∀ i ∈ honest, getSealerByIndex sealers r.idx = i →
    (E.verify i r.sig r.blockHash = true → r.blockHash ∈ signedHashes E (logs i)) ∧
      (E.verify i r.sig2 (r.fieldsWithoutBlock E) = true → r.fieldsWithoutBlock E ∈ signedHashes E (logs i))

/-- Nobody forges a signature of an honest sealer, and the configuration stays the same. -/
structure Unforged (limit : Nat) (honest : Finset NodeID)
    (net : NodeID → PBFTEngine) (m : NodeID × Event × Ambient) : Prop where
  config : FixedConfig sealers limit m.2.2
  backed : ∀ p req, m.2.1 = .handleMsg p → decodeToMsg p = some req → Backed E sealers honest (fun i => (net i).log) req

end

variable {E : Env} {amb : Ambient} {s₀ a b : PBFTEngine} {e : Event} {sealers : List NodeID}
  {limit : Nat} {honest : Finset NodeID} {logs logs' : NodeID → List Action}

variable {kind : PacketType} {log : List Action} {r : PBFTMsg} {s : PBFTEngine}

lemma mem_signedHashes (hx : x ∈ log) (hsent : x.sent = some (kind, r)) :
    r.blockHash ∈ signedHashes E log ∧ r.fieldsWithoutBlock E ∈ signedHashes E log := by
  have hmem : (kind, r) ∈ sentRequests log := mem_filterMap.mpr ⟨x, hx, hsent⟩
  constructor
  · exact mem_flatMap.mpr ⟨_, hmem, mem_cons_self⟩
  · exact mem_flatMap.mpr ⟨_, hmem, mem_cons_of_mem _ mem_cons_self⟩

lemma signedHashes_mono (h : ∀ x ∈ log, x ∈ log') {k : Hash} (hk : k ∈ signedHashes E log) : k ∈ signedHashes E log' := by
  obtain ⟨q, hq, hmem⟩ := mem_flatMap.mp hk
  obtain ⟨x, hx, hsent⟩ := mem_filterMap.mp hq
  exact mem_flatMap.mpr ⟨q, mem_filterMap.mpr ⟨x, h x hx, hsent⟩, hmem⟩

lemma Backed.mono (h : ∀ i, ∀ x ∈ logs i, x ∈ logs' i)
    (hr : Backed E sealers honest logs r) : Backed E sealers honest logs' r := by
  intro i hi hidx
  obtain ⟨hsig, hsig2⟩ := hr i hi hidx
  exact ⟨fun hv => signedHashes_mono (h i) (hsig hv), fun hv => signedHashes_mono (h i) (hsig2 hv)⟩

lemma SmallStep.viewChanges {P : ViewChangeReq → Prop} (h : SmallStep E amb s₀ e a b)
    (hnew : ∀ p req, e = .handleMsg p → decodeToMsg p = some req → checkSign E a.sealerList req = true → P req)
    (ha : a.reqCache.ViewChanges P) : b.reqCache.ViewChanges P := by
  cases h.viewStep with
  | move b tv rv lv hmove hframe =>
    have hmoved : (a.withViewChanges tv rv lv).reqCache.ViewChanges P := by
      cases hmove with
      | catchup => exact ⟨ha.1, fun r hr => ha.2 r (mem_filter.mp hr).1⟩
      | timeout =>
        obtain ⟨-, hP⟩ := PBFTReqCache.onlyViewChanges_removeInvalidViewChange a.reqCache
        exact hP P (fun _ hr => absurd hr id) ha
      | _ => exact ha
    exact ⟨hframe.recvViewChangeReq ▸ hmoved.1, hframe.latestViewChangeReqCache ▸ hmoved.2⟩
  | vote p req he hkind hdecode hvalid =>
    obtain ⟨-, hP⟩ := PBFTReqCache.onlyViewChanges_addViewChangeReq a.reqCache
    refine hP P (fun r hr => ?_) ha
    subst hr
    exact hnew p r he hdecode hvalid.sign
  | change =>
    refine ⟨fun q hq r hr => ?_, fun r hr => ?_⟩
    · exact ha.1 q (mem_filter.mp hq).1 r hr
    · exact ha.2 r (mem_filter.mp hr).1
  | report bl =>
    have hdel (c : PBFTReqCache) (hc : c.ViewChanges P) : (c.delCache E bl.header).ViewChanges P := by
      rw [delCache_eq]
      exact hc
    refine reportBlockWithoutLock_rec (P := fun s => s.reqCache.ViewChanges P) ha (fun _ => ?_) fun _ => hdel _ ha
    refine hdel (a.reqCache.delInvalidViewChange E bl.header) ⟨fun q hq r hr => ?_, ha.2⟩
    obtain ⟨q', hq', rfl⟩ := mem_map.mp (mem_filter.mp hq).1
    exact ha.1 q' hq' r (mem_filter.mp hr).1
  | reset => exact resetConfig_rec (P := fun s => s.reqCache.ViewChanges P) fun _ => ha
  | garbage =>
    refine ⟨fun q hq r hr => ?_, fun r hr => ha.2 r (mem_filter.mp hr).1⟩
    obtain ⟨q', hq', rfl⟩ := mem_map.mp (mem_filter.mp hq).1
    exact ha.1 q' hq' r (mem_filter.mp hr).1

section

variable (E : Env) (sealers : List NodeID) (honest : Finset NodeID) (logs : NodeID → List Action)

def BackedVote (r : PBFTMsg) : Prop :=
  (r.Vouched → checkSign E sealers r = true) ∧ Backed E sealers honest logs r

def BackedViewChange (r : ViewChangeReq) : Prop :=
  checkSign E sealers r = true ∧ Backed E sealers honest logs r

structure Attributed (s : PBFTEngine) : Prop where
  votes : Cached (BackedVote E sealers honest logs) (BackedVote E sealers honest logs) s.reqCache
  viewChanges : s.reqCache.ViewChanges (BackedViewChange E sealers honest logs)

end

lemma Attributed.mono (h : ∀ i, ∀ x ∈ logs i, x ∈ logs' i)
    (hs : Attributed E sealers honest logs s) : Attributed E sealers honest logs' s := by
  refine ⟨⟨hs.votes.1.mono ?_, hs.votes.2.mono ?_⟩, fun q hq r hr => ?_, fun r hr => ?_⟩
  · exact fun r hr => ⟨hr.1, hr.2.mono h⟩
  · exact fun r hr => ⟨hr.1, hr.2.mono h⟩
  · exact ⟨(hs.viewChanges.1 q hq r hr).1, (hs.viewChanges.1 q hq r hr).2.mono h⟩
  · exact ⟨(hs.viewChanges.2 r hr).1, (hs.viewChanges.2 r hr).2.mono h⟩

lemma logs_netStep : (fun i => (netStep (step E) net m i).log) =
      update (fun i => (net i).log) m.1 (step E (net m.1) m.2).log :=
  comp_update log net m.1 _

lemma logs_subset_update (hk : logs k = log) (h : ∀ x ∈ log, x ∈ log') : ∀ i, ∀ x ∈ logs i, x ∈ update logs k log' i := by
  refine (forall_update_iff logs fun i l => ∀ x ∈ logs i, x ∈ l).mpr ⟨?_, fun _ _ _ => id⟩
  rw [hk]
  exact h

/-- An invariant of an engine that refers to the logs of all engines, as something that stays true when they grow, is
kept by the network if the small steps of the engine that moves keep it. -/
theorem invariant_netStep (Inv : (NodeID → List Action) → PBFTEngine → Prop)
    (hmono : ∀ logs logs' s, (∀ i, ∀ x ∈ logs i, x ∈ logs' i) → Inv logs s → Inv logs' s)
    {net : NodeID → PBFTEngine} {m : NodeID × Event × Ambient} (hkey : (net m.1).keyPair = m.1)
    (hsmall : ∀ a b, SmallStep E m.2.2 (net m.1) m.2.1 a b → b.log ⊆ (step E (net m.1) m.2).log → a.keyPair = m.1 →
      (∀ i, ∀ x ∈ (net i).log, x ∈ update (fun i => (net i).log) m.1 b.log i) →
        Inv (update (fun i => (net i).log) m.1 b.log) a → Inv (update (fun i => (net i).log) m.1 b.log) b)
    (hnet : ∀ k, Inv (fun i => (net i).log) (net k)) :
    ∀ k, Inv (fun i => (netStep (step E) net m i).log) (netStep (step E) net m k) := by
  have hmoved := invariant_step_within (fun t => t.keyPair = m.1 ∧ (∀ x ∈ (net m.1).log, x ∈ t.log) ∧
      Inv (update (fun i => (net i).log) m.1 t.log) t)
    (fun a b h hrest hab => by
      obtain ⟨hkeya, hlog, ha⟩ := hab
      obtain ⟨l, hl, -⟩ := h.logged
      have hgrow : ∀ x ∈ a.log, x ∈ b.log := fun x hx => hl ▸ mem_append_right l hx
      have hlog' : ∀ x ∈ (net m.1).log, x ∈ b.log := fun x hx => hgrow x (hlog x hx)
      have hafter := hmono _ _ a (logs_subset_update (update_self _ _ _) hgrow) ha
      rw [update_idem] at hafter
      exact ⟨h.keyPair.trans hkeya, hlog', hsmall a b h hrest hkeya (logs_subset_update rfl hlog') hafter⟩)
    (e := m.2) ⟨hkey, fun _ hx => hx, by
      rw [update_eq_self]
      exact hnet m.1⟩
  rw [logs_netStep]
  refine forall_netStep (fun k => ?_) hmoved.2.2
  exact hmono _ _ _ (logs_subset_update rfl hmoved.2.1) (hnet k)

def startNetwork (E : Env) (amb : NodeID → Ambient) (cfg : NodeID → NodeConfig)
    (backup : NodeID → Option WireMsg) : NodeID → PBFTEngine :=
  fun k => start E (amb k) { cfg k with keyPair := k } (backup k)

lemma keyPair_startNetwork (E : Env) (amb : NodeID → Ambient) (cfg : NodeID → NodeConfig)
    (backup : NodeID → Option WireMsg) (k : NodeID) : (startNetwork E amb cfg backup k).keyPair = k := by
  obtain ⟨_, h, -⟩ := start_cases E (amb k) { cfg k with keyPair := k } (backup k)
  unfold startNetwork
  rw [h]

lemma keyPair_step {e : Event × Ambient} : (step E s e).keyPair = s.keyPair :=
  invariant_step (fun t => t.keyPair = s.keyPair) (fun _ _ h ha => h.keyPair.trans ha) rfl

lemma keyPair_netStep (h : ∀ k, (net k).keyPair = k) (k : NodeID) : (netStep (step E) net m k).keyPair = k :=
  forall_netStep (P := fun (k : NodeID) (s : PBFTEngine) => s.keyPair = k) h (keyPair_step.trans (h m.1)) k

lemma attributed_start (cfg : NodeConfig) (backup : Option WireMsg) :
    Attributed E sealers honest logs (start E amb cfg backup) := by
  have hfresh := fresh_start E amb cfg backup
  refine ⟨hfresh.cached, fun q hq => ?_, fun r hr => ?_⟩
  · rw [hfresh.recvViewChangeReq] at hq
    cases hq
  · rw [hfresh.latestViewChangeReqCache] at hr
    cases hr

section

variable (hverify : ∀ key h n, E.verify key (E.sign key h n) h = true) (hsealers : Sealers sealers)

include hverify hsealers

lemma backedVote_own {height view : Int} {h : Hash} {st : Stamp} (hconf : Configured sealers limit s)
    (hidx : s.idx ≠ MAXIDX) (hx : x ∈ logs s.keyPair)
    (hsent : x.sent = some (kind, PBFTMsg.signed E s.keyPair height view s.idx h st)) :
    BackedVote E sealers honest logs (PBFTMsg.signed E s.keyPair height view s.idx h st) := by
  obtain ⟨hkey, hne⟩ := hconf.own_key hsealers hidx
  refine ⟨fun _ => checkSign_signed hverify hkey hne, fun i _ hi => ?_⟩
  have hown : i = s.keyPair := hi.symm.trans hkey
  obtain ⟨hhash, hfields⟩ := mem_signedHashes (E := E) hx hsent
  rw [hown]
  exact ⟨fun _ => hhash, fun _ => hfields⟩

lemma attributed_smallStep (logs : NodeID → List Action) (hconf₀ : Configured sealers limit s₀)
    (hconf : Configured sealers limit a) (hbacked : ∀ p req, e = .handleMsg p → decodeToMsg p = some req →
      Backed E sealers honest (update logs a.keyPair b.log) req) (h : SmallStep E amb s₀ e a b)
    (ha : Attributed E sealers honest (update logs a.keyPair b.log) a) :
    Attributed E sealers honest (update logs a.keyPair b.log) b := by
  have hlog : update logs a.keyPair b.log a.keyPair = b.log := update_self _ _ _
  have hmark : ∀ r : PBFTMsg, r.isFuture = true → checkSign E a.sealerList r = true →
      BackedVote E sealers honest (update logs a.keyPair b.log) r →
        BackedVote E sealers honest (update logs a.keyPair b.log) r.checked := by
    intro r _ hcheck hr
    rw [hconf.sealerList] at hcheck
    exact ⟨fun _ => hcheck, hr.2⟩
  have hasFuture : ∀ r : PBFTMsg, Backed E sealers honest (update logs a.keyPair b.log) r →
      BackedVote E sealers honest (update logs a.keyPair b.log) (asFuture r) := by
    intro r hr
    refine ⟨fun hvouched => ?_, hr⟩
    rcases hvouched with hfuture | hchecked
    · cases hfuture
    · cases hchecked
  refine ⟨h.cached hconf₀ hmark hmark (fun r hr => ?_) (fun r hr => ?_) ha.votes,
    h.viewChanges (fun p req he hdecode hsign => ?_) ha.viewChanges⟩
  · cases hr with
    | own ht hready hexec hmem =>
      refine backedVote_own hverify hsealers hconf ?_ (hlog.symm ▸ hmem) rfl
      rw [hready.frame.idx]
      exact idx_ne_of_getLeader hconf₀ (validPrepare_of_isValidPrepare ht.2).leader
    | checked hs he hkind hdecode hv =>
      exact ⟨fun _ => checkSign_of_valid hconf hv, hbacked _ _ he hdecode⟩
    | future hs he hkind hdecode => exact hasFuture _ (hbacked _ _ he hdecode)
  · cases hr with
    | @own t hframe hidx hview hmem =>
      have hmem' : .broadcastCommitReq (t.ownVote E amb.commitStamp) t.reqCache.proposal ∈
          update logs a.keyPair b.log t.keyPair := by
        rw [hframe.keyPair, hlog]
        exact hmem
      exact backedVote_own hverify hsealers (hconf.of_frame hframe) (hframe.idx ▸ hidx) hmem' rfl
    | checked hs he hkind hdecode hv =>
      exact ⟨fun _ => checkSign_of_valid hconf hv, hbacked _ _ he hdecode⟩
    | future hs he hkind hdecode => exact hasFuture _ (hbacked _ _ he hdecode)
  · rw [hconf.sealerList] at hsign
    exact ⟨hsign, hbacked p req he hdecode⟩

lemma attributed_netStep (net : NodeID → PBFTEngine) (m : NodeID × Event × Ambient)
    (hun : Unforged E sealers limit honest net m)
    (hnet : (∀ k, (net k).keyPair = k) ∧ ∀ k, Configured sealers limit (net k) ∧
      Attributed E sealers honest (fun i => (net i).log) (net k)) :
    (∀ k, (netStep (step E) net m k).keyPair = k) ∧ ∀ k, Configured sealers limit (netStep (step E) net m k) ∧
        Attributed E sealers honest (fun i => (netStep (step E) net m i).log) (netStep (step E) net m k) := by
  refine ⟨keyPair_netStep net m hnet.1, ?_⟩
  refine invariant_netStep (fun logs s => Configured sealers limit s ∧ Attributed E sealers honest logs s)
    (fun _ _ s h hs => ⟨hs.1, hs.2.mono h⟩) (hnet.1 m.1) (fun a b h _ hkey hlogs ha => ?_) hnet.2
  refine ⟨configured_smallStep hun.config h ha.1, ?_⟩
  have hatt := ha.2
  rw [← hkey] at hatt hlogs ⊢
  exact attributed_smallStep hverify hsealers _ (hnet.2 m.1).1 ha.1
    (fun p req he hdecode => (hun.backed p req he hdecode).mono hlogs) h hatt

end

lemma Attributed.signed {i : NodeID} (hs : Attributed E sealers honest logs s) (hr : s.reqCache.Holds r kind)
    (hchecked : kind = .ViewChangeReqPacket ∨ r.Vouched) (hi : i ∈ honest) (hidx : getSealerByIndex sealers r.idx = i) :
    r.blockHash ∈ signedHashes E (logs i) ∧ r.fieldsWithoutBlock E ∈ signedHashes E (logs i) := by
  have hgood : checkSign E sealers r = true ∧ Backed E sealers honest logs r := by
    cases kind with
    | PrepareReqPacket => exact absurd hr id
    | SignReqPacket =>
      rcases hchecked with hkind | hvouched
      · cases hkind
      · exact ⟨(hs.votes.1 _ r hr).1 hvouched, (hs.votes.1 _ r hr).2⟩
    | CommitReqPacket =>
      rcases hchecked with hkind | hvouched
      · cases hkind
      · exact ⟨(hs.votes.2 _ r hr).1 hvouched, (hs.votes.2 _ r hr).2⟩
    | ViewChangeReqPacket =>
      rcases hr with ⟨q, hq, hmem⟩ | hmem
      · exact hs.viewChanges.1 q hq r hmem
      · exact hs.viewChanges.2 r hmem
  obtain ⟨hsign, hbacked⟩ := hgood
  unfold checkSign at hsign
  rw [hidx, Bool.and_eq_true, Bool.and_eq_true] at hsign
  exact ⟨(hbacked i hi hidx).1 hsign.2.1, (hbacked i hi hidx).2 hsign.2.2⟩

/-- In every run of a network in which no signature of an honest sealer is forged, both hashes of a cached and checked
request that names an honest sealer are signed by this sealer in requests it has sent, though not necessarily in one
request, nor in one of this type. -/
theorem hashesSigned_of_unforged (E : Env)
    (hverify : ∀ key h n, E.verify key (E.sign key h n) h = true) (sealers : List NodeID)
    (hsealers : Sealers sealers) (limit : Nat) (honest : Finset NodeID) (amb : NodeID → Ambient)
    (hamb : ∀ k, FixedConfig sealers limit (amb k)) (cfg : NodeID → NodeConfig)
    (backup : NodeID → Option WireMsg) (ms : List (NodeID × Event × Ambient))
    (hrun : Along (netStep (step E)) (Unforged E sealers limit honest) (startNetwork E amb cfg backup) ms) :
    HashesSigned E sealers honest (run (netStep (step E)) (startNetwork E amb cfg backup) ms) := by
  have hinv := invariant_run (fun net : NodeID → PBFTEngine => (∀ k, (net k).keyPair = k) ∧ ∀ k,
      Configured sealers limit (net k) ∧ Attributed E sealers honest (fun i => (net i).log) (net k))
    (attributed_netStep hverify hsealers)
    ⟨keyPair_startNetwork E amb cfg backup, fun k => ⟨configured_start (hamb k), attributed_start _ _⟩⟩ hrun
  intro j _ kind r hr hchecked i hi hidx
  exact (hinv.2 j).2.signed hr hchecked hi hidx

/-- Every header names the one below it by its hash. -/
def Linked (E : Env) (c : BlockChain) : Prop :=
  (c.blocks.map Block.header).IsChain fun h h' => h'.parentHash = E.headerHash h

lemma Linked.commitBlock {c : BlockChain} (h : Linked E c) (b : Block) :
    Linked E (c.commitBlock E b).2 ∧ c.blocks <+: (c.commitBlock E b).2.blocks := by
  rcases c.commitBlock_blocks E b with heq | ⟨hparent, _, heq⟩ <;> rw [heq]
  · exact ⟨h, prefix_refl _⟩
  refine ⟨?_, prefix_append _ _⟩
  change ((c.blocks ++ [b]).map Block.header).IsChain _
  rw [map_append]
  refine isChain_append.mpr ⟨h, isChain_singleton _, ?_⟩
  rintro header hlast _ ⟨⟩
  rw [getLast?_map, getLast?_eq_getLast_of_ne_nil c.nonempty] at hlast
  cases hlast
  exact hparent

lemma linked_step (h : Linked E s.blockChain) (e : Event × Ambient) :
    Linked E (step E s e).blockChain ∧ s.blockChain.blocks <+: (step E s e).blockChain.blocks := by
  refine invariant_step (fun t => Linked E t.blockChain ∧ s.blockChain.blocks <+: t.blockChain.blocks)
    (fun a b hab ha => ?_) ⟨h, prefix_refl _⟩
  have hmove := hab.chainMove
  generalize b.blockChain = c at hmove ⊢
  cases hmove with
  | stay => exact ha
  | save | sync => exact (ha.1.commitBlock _).imp_right ha.2.trans

/-- In a network in which any messages are handled in any order the chains only grow, and two nodes that have a block
with the same hash have the same headers below it. -/
theorem ledgers_consistent (hinj : Injective E.headerHash) (hnet : ∀ k, Linked E (net k).blockChain)
    (ms : List (NodeID × Event × Ambient)) :
    let blocks := fun k => (run (netStep (step E)) net ms k).blockChain.blocks
    (∀ k, (net k).blockChain.blocks <+: blocks k) ∧
      ∀ k l i j b b', (blocks k)[i]? = some b → (blocks l)[j]? = some b' → b.hash E = b'.hash E →
        i = j ∧ ((blocks k).take i).map Block.header = ((blocks l).take i).map Block.header := by
  intro blocks
  let P (k : NodeID) (s : PBFTEngine) := Linked E s.blockChain ∧ (net k).blockChain.blocks <+: s.blockChain.blocks
  have hrun : ∀ k, P k (run (netStep (step E)) net ms k) := by
    refine run_induction (fun t : NodeID → PBFTEngine => ∀ k, P k (t k)) (fun t m ht => ?_)
      (fun k => ⟨hnet k, prefix_refl _⟩) ms
    exact forall_netStep ht ((linked_step (ht m.1).1 m.2).imp_right (ht m.1).2.trans)
  refine ⟨fun k => (hrun k).2, fun k l i j b b' hb hb' hhash => ?_⟩
  have heq := hinj hhash
  obtain rfl : i = j := by
    have hi := BlockChain.numbered _ i b hb
    rw [heq, BlockChain.numbered _ j b' hb'] at hi
    omega
  refine ⟨rfl, ?_⟩
  rw [map_take, map_take]
  refine take_eq_of_isChain (fun _ _ _ h h' => hinj (h.symm.trans h')) (hrun k).1 (hrun l).1 (x := b.header)
    ?_ ?_
  · rw [getElem?_map, hb]
    rfl
  · rw [getElem?_map, hb', heq]
    rfl

end PBFTEngine

namespace Symbolic

open PBFTEngine

def network : NodeID → PBFTEngine :=
  startNetwork env (fun _ => ambient) (fun k => { keyPair := k, blockChain := chain }) fun _ => none

lemma unforged_deliver {net : NodeID → PBFTEngine} {honest : Finset NodeID}
    {kind : PacketType} {flag : Bool} {w : WireMsg}
    (h : ∀ i ∈ honest, getSealerByIndex sealers w.idx = i → w.blockHash ∈ signedHashes env (net i).log ∧
        env.fieldsHash w.height w.view w.idx w.timestamp ∈ signedHashes env (net i).log) :
    Unforged env sealers 1000 honest net (k, deliver kind flag w) := by
  refine ⟨fixedConfig_ambient, fun p req hp hdecode i hi hidx => ?_⟩
  obtain ⟨-, rfl⟩ := decodeToMsg_deliver hp hdecode
  exact ⟨fun _ => (h i hi hidx).1, fun _ => (h i hi hidx).2⟩

def relabelledVote : List (NodeID × Event × Ambient) :=
  [(12, propose false (block 5)), (13, propose false (block 5)), (12, voteFor .CommitReqPacket 2 (block 5) 0)]

theorem not_kindsKept_of_relabelledVote :
    Along (netStep (step env)) (Unforged env sealers 1000 {12, 13}) network relabelledVote ∧
      ¬KindsKept sealers {12, 13} (run (netStep (step env)) network relabelledVote) := by
  refine ⟨⟨unforged_deliver (by decide +kernel), unforged_deliver (by decide +kernel),
    unforged_deliver (by decide +kernel), trivial⟩, fun h => ?_⟩
  let r := PBFTMsg.signed env 13 1 0 2 (executedHash (block 5)) {}
  have hheld : r ∈ (run (netStep (step env)) network relabelledVote 12).reqCache.commitCache.bucket r.blockHash := by
    decide +kernel
  have hnever : ∀ q ∈ sentRequests (run (netStep (step env)) network
      relabelledVote 13).log, q.1 ≠ .CommitReqPacket := by
    decide +kernel
  obtain ⟨q, hq, hkind, -⟩ := h 12 (by decide) .CommitReqPacket r hheld 13 (by decide) rfl
  exact hnever q hq hkind

theorem hashesSigned_of_unforged_of_relabelledVote : HashesSigned env sealers {12, 13}
      (run (netStep (step env)) network relabelledVote) :=
  hashesSigned_of_unforged env verify_sign sealers ⟨by decide, by decide⟩ 1000 {12, 13}
    (fun _ => ambient) (fun _ => fixedConfig_ambient) (fun k => { keyPair := k, blockChain := chain })
    (fun _ => none) _
    ⟨unforged_deliver (by decide +kernel), unforged_deliver (by decide +kernel),
      unforged_deliver (by decide +kernel), trivial⟩

theorem ledgers_consistent_of_two :
    let ms : List (NodeID × Event × Ambient) := [(11, .syncBlock (block 5), ambient), (12, .syncBlock (block 5), ambient)]
    let blocks := fun k => (run (netStep (step env)) network ms k).blockChain.blocks
    (blocks 11)[1]? = some (block 5) ∧
      ((blocks 11).take 1).map Block.header = ((blocks 12).take 1).map Block.header := by
  intro ms blocks
  have hnet : ∀ k, Linked env (network k).blockChain := by
    intro k
    unfold network startNetwork
    exact isChain_singleton _
  have hfirst : (blocks 11)[1]? = some (block 5) := by decide +kernel
  exact ⟨hfirst, ((ledgers_consistent network headerHash_injective hnet ms).2 11 12 1 1 _ (block 5) hfirst
    (by decide +kernel) rfl).2⟩

end Symbolic

end FiscoBcos
