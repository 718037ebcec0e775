import FiscoBcos.TxPool.TxPool

/-!
# The nonces that are reserved

The nonce is reserved in `verify`, before the last two checks, and it is given back on two of the three ways on which
transactions leave the pool.
-/

namespace FiscoBcos

open List Std.ExtTreeMap Machine

namespace TxPool

variable {config : PoolConfig} {pool : TxPool}

/-- The nonces reserved are those of the pending transactions, each of which has its own. -/
structure Reserved (pool : TxPool) : Prop where
  mem_cache : ∀ nonce, nonce ∈ pool.txpoolNonceChecker.cache ↔ ∃ tx ∈ pool.txsQueue, tx.nonce = nonce
  unique : ∀ tx ∈ pool.txsQueue, ∀ tx' ∈ pool.txsQueue, tx.nonce = tx'.nonce → tx = tx'

def Waiting (pool : TxPool) : Prop :=
  ∀ hash nonce, pool.invalidTxs[hash]? = some nonce → ∃ tx ∈ pool.txsQueue, tx.hash = hash ∧ tx.nonce = nonce

structure Admits (pool : TxPool) (tx : Transaction) : Prop where
  unknown : ∀ t ∈ pool.txsQueue, t.hash ≠ tx.hash
  notDropped : tx.hash ∉ pool.dropped
  valid : tx.nonce ≠ Invalid256
  nonceOk : pool.txNonceCheck.isNonceOk tx = true
  limitOk : pool.txNonceCheck.isBlockLimitOk tx = true
  sender : tx.validSender = true
  free : tx.nonce ∉ pool.txpoolNonceChecker.cache

structure Reaches (config : PoolConfig) (pool : TxPool) (tx : Transaction) : Prop where
  memory : pool.usedMemorySize + tx.capacity ≤ config.maxMemoryLimit
  room : pool.txsQueue.length < config.limit
  admits : pool.Admits tx

variable (config pool) in
/-- What keeps the nonces reserved in step with the pending transactions: a transaction that gets as far as the nonce
belongs to the chain and the group, none that is pending is dropped alone, and a block contains those pending
transactions whose nonces it contains. -/
def Careful : PoolOp → Prop
  | .importTransaction _ tx => Reaches config pool tx → tx.chainId = config.chainId ∧ tx.groupId = config.groupId
  | .drop hash => ∀ tx ∈ pool.txsQueue, tx.hash ≠ hash
  | .dropBlockTrans _ block => ∀ tx ∈ pool.txsQueue,
      tx.hash ∈ block.map Transaction.hash ↔ tx.nonce ∈ block.map Transaction.nonce
  | _ => True

lemma eq_of_hash {tx tx' : Transaction} (htx : tx ∈ pool.txsQueue) (htx' : tx' ∈ pool.txsQueue)
    (h : tx.hash = tx'.hash) : tx = tx' :=
  inj_on_of_nodup_map pool.nodup htx htx' h

structure Removed (keep : Transaction → Bool) (pool pool' : TxPool) : Prop where
  txsQueue : pool'.txsQueue = pool.txsQueue.filter keep
  checker : pool'.txpoolNonceChecker = pool.txpoolNonceChecker
  invalidTxs : pool'.invalidTxs = pool.invalidTxs

lemma removed_removeTrans (pool : TxPool) (hash : Hash) :
    Removed (fun tx => tx.hash ≠ hash) pool (pool.removeTrans hash) := by
  unfold removeTrans
  split
  · next hnone =>
    refine ⟨?_, rfl, rfl⟩
    rw [eq_comm, filter_eq_self]
    intro tx htx
    simpa using find?_eq_none.mp hnone tx htx
  · exact ⟨rfl, rfl, rfl⟩

lemma filter_notMem_cons (queue : List Transaction) (hash : Hash) (hashes : List Hash) :
    (queue.filter fun tx => tx.hash ≠ hash).filter (fun tx => tx.hash ∉ hashes) =
      queue.filter fun tx => tx.hash ∉ hash :: hashes := by
  rw [filter_filter]
  apply filter_congr
  intro tx _
  rw [Bool.eq_iff_iff, Bool.and_eq_true, decide_eq_true_eq, decide_eq_true_eq, decide_eq_true_eq,
    mem_cons, not_or, and_comm]

lemma reserved_removed_iff (h : pool.Reserved) {pool' : TxPool} {keep : Transaction → Bool}
    {nonces : Finset Nat} (hqueue : pool'.txsQueue = pool.txsQueue.filter keep)
    (hcache : pool'.txpoolNonceChecker.cache = pool.txpoolNonceChecker.cache \ nonces) :
    pool'.Reserved ↔ ∀ tx ∈ pool.txsQueue, keep tx = true ↔ tx.nonce ∉ nonces := by
  have hmem {tx : Transaction} : tx ∈ pool'.txsQueue ↔ tx ∈ pool.txsQueue ∧ keep tx = true := by
    rw [hqueue, mem_filter]
  constructor
  · intro h' tx htx
    constructor
    · intro hkeep
      have hcached := (h'.mem_cache tx.nonce).mpr ⟨tx, hmem.mpr ⟨htx, hkeep⟩, rfl⟩
      rw [hcache, Finset.mem_sdiff] at hcached
      exact hcached.2
    · intro hnonce
      have hcached : tx.nonce ∈ pool'.txpoolNonceChecker.cache := by
        rw [hcache, Finset.mem_sdiff]
        exact ⟨(h.mem_cache _).mpr ⟨tx, htx, rfl⟩, hnonce⟩
      obtain ⟨tx', htx', heq⟩ := (h'.mem_cache _).mp hcached
      obtain ⟨hpending, hkeep⟩ := hmem.mp htx'
      rwa [h.unique tx' hpending tx htx heq] at hkeep
  · intro hkeep
    refine ⟨fun nonce => ?_, fun tx htx tx' htx' => h.unique tx (hmem.mp htx).1 tx' (hmem.mp htx').1⟩
    rw [hcache, Finset.mem_sdiff, h.mem_cache]
    constructor
    · rintro ⟨⟨tx, htx, rfl⟩, hnonce⟩
      exact ⟨tx, hmem.mpr ⟨htx, (hkeep tx htx).mpr hnonce⟩, rfl⟩
    · rintro ⟨tx, htx, rfl⟩
      obtain ⟨hpending, hk⟩ := hmem.mp htx
      exact ⟨⟨tx, hpending, rfl⟩, (hkeep tx hpending).mp hk⟩

lemma known_iff {hash : Hash} : pool.known hash = true ↔ ∃ tx ∈ pool.txsQueue, tx.hash = hash := by
  simp [known]

lemma removed_drop (config : PoolConfig) (pool : TxPool) (hash : Hash) :
    Removed (fun tx => tx.hash ≠ hash) pool (pool.drop config hash).2 := by
  unfold drop
  split
  · next hunknown =>
    refine ⟨?_, rfl, rfl⟩
    rw [eq_comm, filter_eq_self]
    intro tx htx
    rw [decide_eq_true_eq]
    intro heq
    rw [known_iff.mpr ⟨tx, htx, heq⟩] at hunknown
    cases hunknown
  · -- the hashes that were dropped are not read here
    have hremoved := removed_removeTrans { pool with
      dropped := if pool.dropped.card < config.limit then Insert.insert hash pool.dropped else ∅ } hash
    exact ⟨hremoved.txsQueue, hremoved.checker, hremoved.invalidTxs⟩

lemma removed_dropTransactions (pool : TxPool) (block : List Transaction) : (pool.dropTransactions block).txsQueue =
        pool.txsQueue.filter (fun tx => tx.hash ∉ block.map Transaction.hash) ∧
      (pool.dropTransactions block).txpoolNonceChecker = pool.txpoolNonceChecker ∧
      ∀ hash nonce, (pool.dropTransactions block).invalidTxs[hash]? = some nonce →
        pool.invalidTxs[hash]? = some nonce ∧ hash ∉ block.map Transaction.hash := by
  unfold dropTransactions
  induction block generalizing pool with
  | nil => exact ⟨by simp, rfl, by simp⟩
  | cons tx block ih =>
    have hremoved := removed_removeTrans pool tx.hash
    obtain ⟨hqueue, hchecker, hinvalid⟩ := ih (pool.dropTransaction tx)
    refine ⟨?_, hchecker.trans hremoved.checker, fun hash nonce hitem => ?_⟩
    · rw [foldl_cons, hqueue]
      change filter _ (pool.removeTrans tx.hash).txsQueue = _
      rw [hremoved.txsQueue, filter_notMem_cons, map_cons]
    obtain ⟨hbefore, hnotMem⟩ := hinvalid hash nonce hitem
    change (pool.invalidTxs.erase tx.hash)[hash]? = some nonce at hbefore
    rw [getElem?_erase] at hbefore
    split at hbefore
    · cases hbefore
    next hne =>
    refine ⟨hbefore, ?_⟩
    rw [map_cons, mem_cons, not_or]
    exact ⟨fun heq => hne (Std.LawfulEqCmp.compare_eq_iff_eq.mpr heq.symm), hnotMem⟩

lemma removed_removeInvalidTx (pool : TxPool) (items : List (Hash × Nat)) :
    (items.foldl removeInvalidTx pool).txsQueue = pool.txsQueue.filter (fun tx => tx.hash ∉ items.map Prod.fst) ∧
      (items.foldl removeInvalidTx pool).txpoolNonceChecker.cache =
        pool.txpoolNonceChecker.cache \ (items.map Prod.snd).toFinset := by
  induction items generalizing pool with
  | nil => exact ⟨by simp, by simp⟩
  | cons item items ih =>
    have hremoved := removed_removeTrans pool item.1
    obtain ⟨hqueue, hcache⟩ := ih (pool.removeInvalidTx item)
    constructor
    · rw [foldl_cons, hqueue]
      change filter _ (pool.removeTrans item.1).txsQueue = _
      rw [hremoved.txsQueue, filter_notMem_cons, map_cons]
    · rw [foldl_cons, hcache]
      change (pool.removeTrans item.1).txpoolNonceChecker.cache.erase item.2 \ _ = _
      rw [hremoved.checker]
      ext nonce
      simp
      tauto

lemma reserved_removeInvalidTxs (h : pool.Reserved) (hwaiting : pool.Waiting) : pool.removeInvalidTxs.Reserved := by
  have hremoved := removed_removeInvalidTx pool pool.invalidTxs.toList
  have hqueue : pool.removeInvalidTxs.txsQueue = _ := hremoved.1
  refine (reserved_removed_iff h hqueue hremoved.2).mpr fun tx htx => ?_
  have hitem {item : Hash × Nat} (hmem : item ∈ pool.invalidTxs.toList) : item.1 = tx.hash ↔ item.2 = tx.nonce := by
    obtain ⟨t, ht, hhash, hnonce⟩ := hwaiting item.1 item.2 (mem_toList_iff_getElem?_eq_some.mp hmem)
    rw [← hhash, ← hnonce]
    constructor
    · intro heq
      rw [eq_of_hash ht htx heq]
    · intro heq
      rw [h.unique t ht tx htx heq]
  rw [decide_eq_true_eq, mem_toFinset, mem_map, mem_map]
  apply not_congr
  apply exists_congr
  intro item
  exact and_congr_right hitem

section

def idsResult (config : PoolConfig) (tx : Transaction) : ImportResult :=
  if tx.chainId ≠ config.chainId then .InvalidChainId
  else if tx.groupId ≠ config.groupId then .InvalidGroupId
  else .Success

variable {tx : Transaction}

lemma idsResult_eq_success : idsResult config tx = .Success ↔
    tx.chainId = config.chainId ∧ tx.groupId = config.groupId := by
  unfold idsResult
  split_ifs <;> simp_all

lemma verify_of_admits (config : PoolConfig) (h : pool.Admits tx) : pool.verify config tx =
    (idsResult config tx, { cache := Insert.insert tx.nonce pool.txpoolNonceChecker.cache }) := by
  have hknown : pool.known tx.hash = false := by
    rw [Bool.eq_false_iff, ne_eq, known_iff]
    rintro ⟨t, ht, heq⟩
    exact h.unknown t ht heq
  have hnonce : ¬(decide (tx.nonce = Invalid256) || !pool.txNonceCheck.isNonceOk tx) = true := by
    rw [h.nonceOk, decide_eq_false h.valid]
    decide
  unfold verify NonceCheck.isNonceOk
  rw [hknown, if_neg Bool.false_ne_true, if_neg h.notDropped, if_neg hnonce, h.limitOk, h.sender, if_neg h.free]
  unfold idsResult
  simp only [Bool.not_true, Bool.false_eq_true, if_false, if_true]
  split
  · rfl
  · split <;> rfl

lemma verify_of_not_admits {config : PoolConfig} (h : ¬pool.Admits tx) :
    (pool.verify config tx).1 ≠ .Success ∧ (pool.verify config tx).2 = pool.txpoolNonceChecker := by
  unfold verify
  by_cases hknown : pool.known tx.hash = true
  · rw [if_pos hknown]
    exact ⟨nofun, rfl⟩
  rw [if_neg hknown]
  by_cases hdropped : tx.hash ∈ pool.dropped
  · rw [if_pos hdropped]
    exact ⟨nofun, rfl⟩
  rw [if_neg hdropped]
  by_cases hnonce : (decide (tx.nonce = Invalid256) || !pool.txNonceCheck.isNonceOk tx) = true
  · rw [if_pos hnonce]
    exact ⟨nofun, rfl⟩
  rw [if_neg hnonce]
  by_cases hlimit : (!pool.txNonceCheck.isBlockLimitOk tx) = true
  · rw [if_pos hlimit]
    exact ⟨nofun, rfl⟩
  rw [if_neg hlimit]
  by_cases hsender : (!tx.validSender) = true
  · rw [if_pos hsender]
    exact ⟨nofun, rfl⟩
  rw [if_neg hsender]
  by_cases hfree : tx.nonce ∈ pool.txpoolNonceChecker.cache
  · unfold NonceCheck.isNonceOk
    rw [if_pos hfree]
    exact ⟨nofun, rfl⟩
  -- all checks have passed
  simp only [Bool.or_eq_true, decide_eq_true_eq, Bool.not_eq_true', not_or, Bool.not_eq_false] at hnonce hlimit hsender
  refine absurd ⟨fun t ht heq => ?_, hdropped, hnonce.1, hnonce.2, hlimit, hsender, hfree⟩ h
  exact hknown (known_iff.mpr ⟨t, ht, heq⟩)

lemma admits_setTime (now : Nat) : pool.Admits { tx with importTime := now } ↔ pool.Admits tx :=
  ⟨fun h => ⟨h.1, h.2, h.3, h.4, h.5, h.6, h.7⟩, fun h => ⟨h.1, h.2, h.3, h.4, h.5, h.6, h.7⟩⟩

lemma import_of_reaches (now : Nat) (h : Reaches config pool tx) :
    let pool' := (pool.importTransaction config now tx).2
    pool'.txpoolNonceChecker.cache = Insert.insert tx.nonce pool.txpoolNonceChecker.cache ∧
      pool'.invalidTxs = pool.invalidTxs ∧
      pool'.txsQueue = if tx.chainId = config.chainId ∧ tx.groupId = config.groupId then
        pool.txsQueue.orderedInsert (fun a b => a.importTime ≤ b.importTime) { tx with importTime := now }
        else pool.txsQueue := by
  intro pool'
  have hverify := verify_of_admits config ((admits_setTime now).mpr h.admits)
  have hpool' : pool' = if idsResult config tx = .Success then
      { pool with
        txpoolNonceChecker := { cache := Insert.insert tx.nonce pool.txpoolNonceChecker.cache } }.insert
        { tx with importTime := now }
      else { pool with
        txpoolNonceChecker := { cache := Insert.insert tx.nonce pool.txpoolNonceChecker.cache } } := by
    change (pool.importTransaction config now tx).2 = _
    unfold importTransaction
    rw [if_neg (not_lt.mpr h.memory), if_neg (not_le.mpr h.room), hverify]
    rfl
  rw [hpool']
  by_cases hids : tx.chainId = config.chainId ∧ tx.groupId = config.groupId
  · rw [if_pos hids, if_pos (idsResult_eq_success.mpr hids)]
    unfold insert
    rw [dif_pos h.admits.unknown]
    exact ⟨Finset.insert_idem _ _, rfl, rfl⟩
  · rw [if_neg hids, if_neg fun hsuccess => hids (idsResult_eq_success.mp hsuccess)]
    exact ⟨rfl, rfl, rfl⟩

lemma import_of_not_reaches {now : Nat} (h : ¬Reaches config pool tx) :
    (pool.importTransaction config now tx).2 = pool := by
  unfold importTransaction
  dsimp only
  split
  · rfl
  next hmemory =>
  split
  · rfl
  next hroom =>
  have hadmits : ¬pool.Admits { tx with importTime := now } := fun hadmits =>
    h ⟨not_lt.mp hmemory, not_le.mp hroom, (admits_setTime now).mp hadmits⟩
  obtain ⟨hresult, hchecker⟩ := verify_of_not_admits hadmits
  rw [if_neg hresult, hchecker]

lemma reserved_import_iff (h : pool.Reserved) {now : Nat} :
    (pool.importTransaction config now tx).2.Reserved ↔ pool.Careful config (.importTransaction now tx) := by
  by_cases hreaches : Reaches config pool tx
  · obtain ⟨hcache, -, hqueue⟩ := import_of_reaches now hreaches
    have hfree : ¬∃ t ∈ pool.txsQueue, t.nonce = tx.nonce := by
      rw [← h.mem_cache]
      exact hreaches.admits.free
    constructor
    · intro h' _
      by_contra hids
      rw [if_neg hids] at hqueue
      have hnonce := (h'.mem_cache tx.nonce).mp (hcache ▸ Finset.mem_insert_self _ _)
      rw [hqueue] at hnonce
      exact hfree hnonce
    · intro hids
      rw [if_pos (hids hreaches)] at hqueue
      have hmem {t : Transaction} : t ∈ (pool.importTransaction config now tx).2.txsQueue ↔
          t = { tx with importTime := now } ∨ t ∈ pool.txsQueue := by
        rw [hqueue, mem_orderedInsert]
      refine ⟨fun nonce => ?_, fun t ht t' ht' heq => ?_⟩
      · rw [hcache, Finset.mem_insert, h.mem_cache]
        constructor
        · rintro (rfl | ⟨t, ht, rfl⟩)
          · exact ⟨_, hmem.mpr (.inl rfl), rfl⟩
          · exact ⟨t, hmem.mpr (.inr ht), rfl⟩
        · rintro ⟨t, ht, rfl⟩
          cases hmem.mp ht with
          | inl heq => exact .inl (by rw [heq])
          | inr ht => exact .inr ⟨t, ht, rfl⟩
      · cases hmem.mp ht with
        | inl hnew =>
          cases hmem.mp ht' with
          | inl hnew' => rw [hnew, hnew']
          | inr hold' => exact absurd ⟨t', hold', by rw [← heq, hnew]⟩ hfree
        | inr hold =>
          cases hmem.mp ht' with
          | inl hnew' => exact absurd ⟨t, hold, by rw [heq, hnew']⟩ hfree
          | inr hold' => exact h.unique t hold t' hold' heq
  · rw [import_of_not_reaches hreaches]
    exact ⟨fun _ hyes => absurd hyes hreaches, fun _ => h⟩

end

lemma invalidTxs_topRound {limit : Nat} {updateAvoid : Bool} {top : Top} {tx : Transaction} :
    (pool.topRound config limit updateAvoid top tx).invalidTxs = top.invalidTxs ∨
      (pool.topRound config limit updateAvoid top tx).invalidTxs = top.invalidTxs.insert tx.hash tx.nonce := by
  unfold topRound
  split_ifs <;> first | exact .inl rfl | exact .inr rfl

lemma waiting_topTransactions (h : pool.Waiting) {limit : Nat} {avoid : Finset Hash} {updateAvoid : Bool} :
    (pool.topTransactions config limit avoid updateAvoid).2.2.Waiting := by
  refine foldlRecOn (motive := fun top : Top => ∀ hash nonce, top.invalidTxs[hash]? = some nonce →
    ∃ tx ∈ pool.txsQueue, tx.hash = hash ∧ tx.nonce = nonce) pool.txsQueue
    (pool.topRound config limit updateAvoid) h fun top htop tx htx hash nonce hitem => ?_
  cases invalidTxs_topRound with
  | inl hsame =>
    rw [hsame] at hitem
    exact htop hash nonce hitem
  | inr hinsert =>
    rw [hinsert, Std.ExtTreeMap.getElem?_insert] at hitem
    split at hitem
    · next heq =>
      cases hitem
      exact ⟨tx, htx, Std.LawfulEqCmp.compare_eq_iff_eq.mp heq, rfl⟩
    · exact htop hash nonce hitem

lemma cache_dropBlockTrans {pool : TxPool} {chain : TxChain} {block : List Transaction} :
    (pool.dropBlockTrans chain block).txsQueue = pool.txsQueue.filter (fun tx => tx.hash ∉ block.map Transaction.hash) ∧
      (pool.dropBlockTrans chain block).txpoolNonceChecker.cache =
        pool.txpoolNonceChecker.cache \ (block.map Transaction.nonce).toFinset ∧
      ∀ hash nonce, (pool.dropBlockTrans chain block).invalidTxs[hash]? = some nonce →
        pool.invalidTxs[hash]? = some nonce ∧ hash ∉ block.map Transaction.hash := by
  have hremoved := removed_dropTransactions
    { pool with txNonceCheck := pool.txNonceCheck.updateCache chain false } block
  refine ⟨hremoved.1, ?_, hremoved.2.2⟩
  change (dropTransactions _ block).txpoolNonceChecker.cache \ _ = _
  rw [hremoved.2.1]

lemma reserved_step_iff (config : PoolConfig) (h : pool.Reserved) (hwaiting : pool.Waiting) (op : PoolOp) :
    (pool.step config op).Reserved ↔ pool.Careful config op := by
  cases op with
  | importTransaction => exact reserved_import_iff h
  | drop hash =>
    have hremoved := removed_drop config pool hash
    have hcache : (pool.drop config hash).2.txpoolNonceChecker.cache = pool.txpoolNonceChecker.cache \ ∅ := by
      rw [hremoved.checker, Finset.sdiff_empty]
    refine (reserved_removed_iff h hremoved.txsQueue hcache).trans ?_
    simp [Careful]
  | dropBlockTrans =>
    obtain ⟨hqueue, hcache, -⟩ := cache_dropBlockTrans
    refine (reserved_removed_iff h hqueue hcache).trans ?_
    apply forall₂_congr
    intro tx _
    rw [decide_eq_true_eq, mem_toFinset]
    exact not_iff_not
  | topTransactions => exact ⟨fun _ => trivial, fun _ => ⟨h.mem_cache, h.unique⟩⟩
  | removeInvalidTxs => exact ⟨fun _ => trivial, fun _ => reserved_removeInvalidTxs h hwaiting⟩

lemma waiting_step (hwaiting : pool.Waiting) {op : PoolOp} (hcareful : pool.Careful config op) :
    (pool.step config op).Waiting := by
  cases op with
  | importTransaction now tx =>
    by_cases hreaches : Reaches config pool tx
    · obtain ⟨-, hinvalid, hqueue⟩ := import_of_reaches now hreaches
      intro hash nonce hitem
      change (pool.importTransaction config now tx).2.invalidTxs[hash]? = some nonce at hitem
      rw [hinvalid] at hitem
      obtain ⟨t, ht, heq⟩ := hwaiting hash nonce hitem
      refine ⟨t, ?_, heq⟩
      change t ∈ (pool.importTransaction config now tx).2.txsQueue
      rw [hqueue, if_pos (hcareful hreaches), mem_orderedInsert]
      exact .inr ht
    · change (pool.importTransaction config now tx).2.Waiting
      rw [import_of_not_reaches hreaches]
      exact hwaiting
  | drop hash =>
    have hremoved := removed_drop config pool hash
    intro hash' nonce hitem
    change (pool.drop config hash).2.invalidTxs[hash']? = some nonce at hitem
    rw [hremoved.invalidTxs] at hitem
    obtain ⟨t, ht, heq⟩ := hwaiting hash' nonce hitem
    refine ⟨t, ?_, heq⟩
    change t ∈ (pool.drop config hash).2.txsQueue
    rw [hremoved.txsQueue, mem_filter]
    exact ⟨ht, decide_eq_true (hcareful t ht)⟩
  | dropBlockTrans chain block =>
    obtain ⟨hqueue, -, hinvalid⟩ := cache_dropBlockTrans
    intro hash nonce hitem
    obtain ⟨hbefore, hnotMem⟩ := hinvalid hash nonce hitem
    obtain ⟨t, ht, hhash, hnonce⟩ := hwaiting hash nonce hbefore
    refine ⟨t, ?_, hhash, hnonce⟩
    change t ∈ (pool.dropBlockTrans chain block).txsQueue
    rw [hqueue, mem_filter, hhash]
    exact ⟨ht, decide_eq_true hnotMem⟩
  | topTransactions => exact waiting_topTransactions hwaiting
  | removeInvalidTxs =>
    intro hash nonce hitem
    cases getElem?_empty.symm.trans hitem

lemma reserved_along_iff (h : pool.Reserved) (hwaiting : pool.Waiting) (ops : List PoolOp) :
    Along (step config) (fun pool op => (pool.step config op).Reserved) pool ops ↔
      Along (step config) (Careful config) pool ops := by
  induction ops generalizing pool with
  | nil => exact Iff.rfl
  | cons op ops ih =>
    have hstep := reserved_step_iff config h hwaiting op
    constructor
    · rintro ⟨hop, hops⟩
      have hcareful := hstep.mp hop
      exact ⟨hcareful, (ih hop (waiting_step hwaiting hcareful)).mp hops⟩
    · rintro ⟨hcareful, hops⟩
      have hop := hstep.mpr hcareful
      exact ⟨hop, (ih hop (waiting_step hwaiting hcareful)).mpr hops⟩

/-- In a run of a new pool the reserved nonces are after every step those of the pending transactions, each of which has
its own, exactly if every step is careful. -/
theorem reserved_iff_careful (config : PoolConfig) (check : TransactionNonceCheck) (ops : List PoolOp) :
    Along (step config) (fun pool op => (pool.step config op).Reserved) { txNonceCheck := check } ops ↔
      Along (step config) (Careful config) { txNonceCheck := check } ops := by
  apply reserved_along_iff
  · exact ⟨by simp, by simp⟩
  · intro hash nonce hitem
    cases getElem?_empty.symm.trans hitem

def sampleConfig : PoolConfig :=
  ⟨100, 1000000, 1, 1⟩

def samplePool (ops : List PoolOp) : TxPool :=
  run (step sampleConfig) { txNonceCheck := TransactionNonceCheck.init [] 1000 } ops

/-- (a) A transaction of another group is refused, and its nonce stays reserved. (b) So does the nonce of a transaction
that is dropped. (c) A block with another transaction of the same nonce takes the nonce from a transaction that is still
pending. -/
theorem not_reserved :
    let tx : Transaction := { hash := 1, nonce := 7, blockLimit := 10 }
    let summary (ops : List PoolOp) :=
      ((samplePool ops).txpoolNonceChecker.cache, (samplePool ops).txsQueue.map Transaction.nonce)
    summary [.importTransaction 0 { tx with groupId := 2 }] = ({7}, []) ∧
      summary [.importTransaction 0 tx, .drop 1] = ({7}, []) ∧
      summary [.importTransaction 0 tx,
        .dropBlockTrans [[{ tx with hash := 2 }]] [{ tx with hash := 2 }]] = (∅, [7]) := by
  decide +kernel

end TxPool

end FiscoBcos
