import FiscoBcos.Chain.Block

/-!
# Blocks proposed by the hashes of their transactions

`PartiallyBlock` and `TxPool::initPartiallyBlock`: the receiver of such a proposal takes what it can
from its transaction pool and asks the leader for the rest.
-/

namespace FiscoBcos

structure PartiallyBlock where
  header : BlockHeader := {}
  txsHash : List Hash := []
  /-- `none` for a transaction that is still missing -/
  transactions : List (Option Bytes) := []
  /-- hash and position of every transaction the pool did not have -/
  missedTxs : List (Hash × Nat) := []
deriving DecidableEq

structure MissedTxsResponse where
  number : Int
  blockHash : Hash
  transactions : List Bytes
deriving DecidableEq

namespace PartiallyBlock

/-- `PartiallyBlock::decodeProposal`; the block hash sent along has to be that of the header. -/
def decodeProposal (E : Env) (bytes : Bytes) : Option PartiallyBlock :=
  match E.decodeProposal bytes with
  | none => none
  | some (header, txsHash, blockHash) =>
    if blockHash = E.headerHash header then
      some { header := header, txsHash := txsHash, transactions := txsHash.map fun _ => none }
    else none

/-- `TxPool::initPartiallyBlock`, with `pool` for the transactions of the pool by hash. -/
def initPartiallyBlock (pool : Hash → Option Bytes) (p : PartiallyBlock) : PartiallyBlock :=
  { p with
    transactions := p.txsHash.map pool
    missedTxs := p.missedTxs ++ p.txsHash.zipIdx.filter fun t => (pool t.1).isNone }

def txsAllHit (p : PartiallyBlock) : Bool :=
  p.missedTxs.isEmpty

/-- `PartiallyBlock::fillBlock`: number, hash, count and every transaction hash have to match. -/
def fillBlock (E : Env) (p : PartiallyBlock) (resp : MissedTxsResponse) : Option PartiallyBlock :=
  if resp.number = p.header.number ∧ resp.blockHash = E.headerHash p.header ∧
      resp.transactions.map E.txHash = p.missedTxs.map Prod.fst then
    some { p with
        transactions := (p.missedTxs.zip resp.transactions).foldl
          (fun txs t => txs.set t.1.2 (some t.2)) p.transactions }
  else none

/-- The complete block; a transaction still missing would be a null pointer in the source. -/
def toBlock (p : PartiallyBlock) : Block where
  header := p.header
  transactions := p.transactions.map fun t => t.getD []

end PartiallyBlock

end FiscoBcos
