import Mathlib.Data.Finset.Lattice.Fold
import FiscoBcos.Chain.Block
import FiscoBcos.Lib.Run

/-!
# The nonces of recent blocks

`CommonTransactionNonceCheck` and `TransactionNonceCheck` of `libtxpool`. The second one holds the nonces of the last
blocks.
-/

namespace FiscoBcos

/-- What the pool reads of a transaction. `validSender` says that the sender can be recovered. -/
structure Transaction where
  hash : Hash
  nonce : Nat
  blockLimit : Nat
  chainId : Nat := 1
  groupId : Nat := 1
  validSender : Bool := true
  capacity : Nat := 0
  importTime : Nat := 0
deriving DecidableEq

structure NonceCheck where
  cache : Finset Nat := ∅
deriving DecidableEq

namespace NonceCheck

variable (c : NonceCheck)

def isNonceOk (trans : Transaction) (needInsert : Bool) : Bool × NonceCheck :=
  if trans.nonce ∈ c.cache then (false, c)
  else (true, if needInsert then { cache := insert trans.nonce c.cache } else c)

def delCache (key : Nat) : NonceCheck :=
  { cache := c.cache.erase key }

def delCacheAll (transactions : List Transaction) : NonceCheck :=
  { cache := c.cache \ (transactions.map Transaction.nonce).toFinset }

def insertCache (transaction : Transaction) : NonceCheck :=
  { cache := insert transaction.nonce c.cache }

end NonceCheck

/-- The blocks after the genesis block, which has no transactions. -/
abbrev TxChain := List (List Transaction)

namespace TxChain

variable (chain : TxChain)

def number : Nat :=
  chain.length

variable (blockNumber : Nat)

def getBlockByNumber : Option (List Transaction) :=
  match blockNumber with
  | 0 => some []
  | n + 1 => chain[n]?

def getAllNonces (block : List Transaction) : List Nat :=
  block.map Transaction.nonce

/-- What was written to `_sys_block_2_nonces_` with the block. -/
def getNonces : Option (List Nat) :=
  (chain.getBlockByNumber blockNumber).map getAllNonces

def nonces : List Nat :=
  (chain.getNonces blockNumber).getD []

end TxChain

structure TransactionNonceCheck extends NonceCheck where
  blockNonceCache : Std.ExtTreeMap Nat (Option (List Nat)) := ∅
  startblk : Nat := 0
  endblk : Nat := 0
  maxBlockLimit : Nat
  blockNumber : Nat := 0

namespace TransactionNonceCheck

variable (chain : TxChain) (c : TransactionNonceCheck) (tx : Transaction)

def isBlockLimitOk : Bool :=
  !(tx.blockLimit = Invalid256 || c.blockNumber ≥ tx.blockLimit || tx.blockLimit > c.blockNumber + c.maxBlockLimit)

def isNonceOk : Bool :=
  (c.toNonceCheck.isNonceOk tx false).1

def ok : Bool :=
  c.isBlockLimitOk tx && c.isNonceOk tx

/-- The nonces of the newest block come from the block, those of other blocks from the table. -/
def getNonceAndUpdateCache (blockNumber : Nat) (update : Bool) : Option (List Nat) × TransactionNonceCheck :=
  let nonceVec :=
    match c.blockNonceCache[blockNumber]? with
    | some nonceVec => nonceVec
    | none =>
      if chain.number = blockNumber then
        (chain.getBlockByNumber blockNumber).map TxChain.getAllNonces
      else chain.getNonces blockNumber
  (nonceVec, if update && c.blockNonceCache.size < c.maxBlockLimit then
      { c with blockNonceCache := c.blockNonceCache.insert blockNumber nonceVec }
    else c)

def expire (i : Nat) : TransactionNonceCheck :=
  let nonceVec := (c.getNonceAndUpdateCache chain i false).1
  { c with
    cache := c.cache \ (nonceVec.getD []).toFinset
    blockNonceCache := c.blockNonceCache.erase i }

def takeIn (i : Nat) : TransactionNonceCheck :=
  let (nonceVec, c) := c.getNonceAndUpdateCache chain i true
  { c with cache := c.cache ∪ (nonceVec.getD []).toFinset }

def numbers (first last : Nat) : List Nat :=
  List.range' first (last + 1 - first)

def updateCache (rebuild : Bool) : TransactionNonceCheck :=
  let lastnumber := chain.number
  let prestartblk := c.startblk
  let preendblk := c.endblk
  let startblk := if lastnumber > c.maxBlockLimit then lastnumber - c.maxBlockLimit else 0
  let c := { c with blockNumber := lastnumber, endblk := lastnumber, startblk := startblk }
  let c :=
    if rebuild then { c with cache := ∅ }
    else (List.range' prestartblk (startblk - prestartblk)).foldl (expire chain) c
  let preendblk := if rebuild then 0 else preendblk
  (numbers (max (preendblk + 1) startblk) lastnumber).foldl (takeIn chain) c

def init (maxBlockLimit : Nat) : TransactionNonceCheck :=
  updateCache chain { maxBlockLimit := maxBlockLimit } true

end TransactionNonceCheck

end FiscoBcos
