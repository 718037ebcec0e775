import FiscoBcos.TxPool.NonceCheck

/-!
# The pool of transactions

`libtxpool/TxPool.cpp`. What only the synchronisation of transactions reads (`m_txsHashFilter`, `synced`) and the receipts
that are sent back are left out.
-/

namespace FiscoBcos

variable {queue : List Transaction}

inductive ImportResult where
  | Success
  | AlreadyInChain
  | AlreadyKnown
  | Malformed
  | TransactionNonceCheckFail
  | TxPoolNonceCheckFail
  | TransactionPoolIsFull
  | InvalidChainId
  | InvalidGroupId
  | BlockLimitCheckFailed
  | OverGroupMemoryLimit
deriving DecidableEq

structure PoolConfig where
  limit : Nat
  maxMemoryLimit : Int
  chainId : Nat
  groupId : Nat

/-- The queue is ordered by the time of import, the newest of the same time first. `m_txsHash` has an
iterator into it for each hash, so no hash comes twice. -/
structure TxPool where
  txNonceCheck : TransactionNonceCheck
  txpoolNonceChecker : NonceCheck := {}
  txsQueue : List Transaction := []
  dropped : Finset Hash := ∅
  invalidTxs : Std.ExtTreeMap Hash Nat := ∅
  usedMemorySize : Int := 0
  nodup : (txsQueue.map Transaction.hash).Nodup := by simp

namespace TxPool

variable (config : PoolConfig) (pool : TxPool) (hash : Hash)

def known : Bool :=
  pool.txsQueue.any fun tx => tx.hash = hash

/-- The nonce goes into the checker of the pool before the last two checks. -/
def verify (trans : Transaction) : ImportResult × NonceCheck :=
  let checker := pool.txpoolNonceChecker
  if pool.known trans.hash then (.AlreadyKnown, checker)
  else if trans.hash ∈ pool.dropped then (.AlreadyInChain, checker)
  else if trans.nonce = Invalid256 || !pool.txNonceCheck.isNonceOk trans then
    (.TransactionNonceCheckFail, checker)
  else if !pool.txNonceCheck.isBlockLimitOk trans then (.BlockLimitCheckFailed, checker)
  else if !trans.validSender then (.Malformed, checker)
  else
    let (nonceOk, checker) := checker.isNonceOk trans true
    if !nonceOk then (.TxPoolNonceCheckFail, checker)
    else if trans.chainId ≠ config.chainId then (.InvalidChainId, checker)
    else if trans.groupId ≠ config.groupId then (.InvalidGroupId, checker)
    else (.Success, checker)

lemma nodup_orderedInsert (h : (queue.map Transaction.hash).Nodup)
    {tx : Transaction} (htx : ∀ t ∈ queue, t.hash ≠ tx.hash) :
    ((queue.orderedInsert (fun a b => a.importTime ≤ b.importTime) tx).map Transaction.hash).Nodup := by
  rw [((List.perm_orderedInsert _ tx queue).map _).nodup_iff, List.map_cons, List.nodup_cons]
  refine ⟨fun hmem => ?_, h⟩
  obtain ⟨t, ht, heq⟩ := List.mem_map.mp hmem
  exact htx t ht heq

def insert (tx : Transaction) : TxPool :=
  if h : ∀ t ∈ pool.txsQueue, t.hash ≠ tx.hash then
    { pool with
      txsQueue := pool.txsQueue.orderedInsert (fun a b => a.importTime ≤ b.importTime) tx
      nodup := nodup_orderedInsert pool.nodup h
      txpoolNonceChecker := pool.txpoolNonceChecker.insertCache tx
      usedMemorySize := pool.usedMemorySize + tx.capacity }
  else pool

def importTransaction (now : Nat) (trans : Transaction) : ImportResult × TxPool :=
  let tx := { trans with importTime := now }
  if pool.usedMemorySize + tx.capacity > config.maxMemoryLimit then (.OverGroupMemoryLimit, pool)
  else if pool.txsQueue.length ≥ config.limit then (.TransactionPoolIsFull, pool)
  else
    let (result, checker) := pool.verify config tx
    let pool := { pool with txpoolNonceChecker := checker }
    (result, if result = .Success then pool.insert tx else pool)

lemma nodup_filter (h : (queue.map Transaction.hash).Nodup)
    (p : Transaction → Bool) : ((queue.filter p).map Transaction.hash).Nodup :=
  h.sublist (List.filter_sublist.map _)

def removeTrans : TxPool :=
  match pool.txsQueue.find? fun tx => tx.hash = hash with
  | none => pool
  | some transaction =>
    { pool with
      txsQueue := pool.txsQueue.filter fun tx => tx.hash ≠ hash
      nodup := nodup_filter pool.nodup _
      usedMemorySize := pool.usedMemorySize - transaction.capacity }

def drop : Bool × TxPool :=
  if !pool.known hash then (false, pool)
  else
    let dropped := if pool.dropped.card < config.limit then Insert.insert hash pool.dropped else ∅
    (true, { pool with dropped := dropped }.removeTrans hash)

def dropTransaction (tx : Transaction) : TxPool :=
  { pool.removeTrans tx.hash with invalidTxs := pool.invalidTxs.erase tx.hash }

def dropTransactions (block : List Transaction) : TxPool :=
  block.foldl dropTransaction pool

def dropBlockTrans (chain : TxChain) (block : List Transaction) : TxPool :=
  let pool := { pool with txNonceCheck := pool.txNonceCheck.updateCache chain false }.dropTransactions block
  { pool with txpoolNonceChecker := pool.txpoolNonceChecker.delCacheAll block }

/-- What the loop of `topTransactions` has collected: the transactions, those to avoid, and those whose
block limit has passed. -/
structure Top where
  ret : List Transaction := []
  avoid : Finset Hash
  invalidTxs : Std.ExtTreeMap Hash Nat

def topRound (limit : Nat) (updateAvoid : Bool) (top : Top) (tx : Transaction) : Top :=
  if top.ret.length ≥ min config.limit limit then top
  else if tx.hash ∈ top.invalidTxs then top
  else if !pool.txNonceCheck.isNonceOk tx then top
  else if !pool.txNonceCheck.isBlockLimitOk tx then
    { top with invalidTxs := top.invalidTxs.insert tx.hash tx.nonce }
  else if tx.hash ∈ top.avoid then top
  else
    { top with
      ret := top.ret ++ [tx]
      avoid := if updateAvoid then Insert.insert tx.hash top.avoid else top.avoid }

def topTransactions (limit : Nat) (avoid : Finset Hash) (updateAvoid : Bool) :
    List Transaction × Finset Hash × TxPool :=
  let top := pool.txsQueue.foldl (pool.topRound config limit updateAvoid)
    { avoid := avoid, invalidTxs := pool.invalidTxs }
  (top.ret, top.avoid, { pool with invalidTxs := top.invalidTxs })

def removeInvalidTx (item : Hash × Nat) : TxPool :=
  let pool := pool.removeTrans item.1
  { pool with
    dropped := Insert.insert item.1 pool.dropped
    txpoolNonceChecker := pool.txpoolNonceChecker.delCache item.2 }

def removeInvalidTxs : TxPool :=
  { pool.invalidTxs.toList.foldl removeInvalidTx pool with invalidTxs := ∅ }

end TxPool

inductive PoolOp where
  | importTransaction (now : Nat) (tx : Transaction)
  | drop (hash : Hash)
  | dropBlockTrans (chain : TxChain) (block : List Transaction)
  | topTransactions (limit : Nat) (avoid : Finset Hash) (updateAvoid : Bool)
  | removeInvalidTxs

def TxPool.step (config : PoolConfig) (pool : TxPool) : PoolOp → TxPool
  | .importTransaction now tx => (pool.importTransaction config now tx).2
  | .drop hash => (pool.drop config hash).2
  | .dropBlockTrans chain block => pool.dropBlockTrans chain block
  | .topTransactions limit avoid updateAvoid => (pool.topTransactions config limit avoid updateAvoid).2.2
  | .removeInvalidTxs => pool.removeInvalidTxs

end FiscoBcos
