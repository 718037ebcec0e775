import Mathlib.Algebra.Group.Int.Defs
import Mathlib.Algebra.Group.Nat.Defs
import Mathlib.Data.Nat.Pairing
import Mathlib.Data.List.Sort

/-!
# Blocks, their hashes and their execution

The data of `libethcore` and `libblockverifier` that the PBFT engine reads. Hashing, signing, the RLP
codecs and the virtual machine are not modelled: they are the fields of `Env`.
-/

namespace FiscoBcos

/-- `h256`; `0` is the empty hash `h256()`. -/
abbrev Hash := Nat

/-- `h512`, the public key of a node; `0` is `h512()`, the answer for an index without a sealer. -/
abbrev NodeID := Nat

abbrev Bytes := List Nat

/-- `Invalid256 = ~(u256)0`. -/
def Invalid256 : Nat := 2 ^ 256 - 1

/-- The largest `IDXTYPE` (`uint16_t`); the index of a node that is not a sealer. -/
def MAXIDX : Nat := 65535

structure BlockHeader where
  parentHash : Hash := 0
  stateRoot : Hash := 0
  transactionsRoot : Hash := 0
  receiptsRoot : Hash := 0
  dbHash : Hash := 0
  logBloom : Nat := 0
  number : Int := 0
  gasLimit : Nat := 0
  gasUsed : Nat := 0
  timestamp : Nat := 2 ^ 64 - 1
  extraData : List Bytes := []
  sealer : Nat := Invalid256
  sealerList : List NodeID := []
deriving DecidableEq

variable (h : BlockHeader)

structure Block where
  header : BlockHeader := {}
  transactions : List Bytes := []
  sigList : List (Nat × Bytes) := []
deriving DecidableEq

structure BlockInfo where
  hash : Hash
  number : Int
  stateRoot : Hash
deriving DecidableEq

variable {p : BlockInfo}

structure ExecutionRoots where
  receiptsRoot : Hash
  stateRoot : Hash
  dbHash : Hash
deriving DecidableEq

variable (r : ExecutionRoots)

def BlockHeader.withRoots : BlockHeader :=
  { h with receiptsRoot := r.receiptsRoot, stateRoot := r.stateRoot, dbHash := r.dbHash }

/-- The header without what execution fills in; the virtual machine sees no more of it. -/
def BlockHeader.withoutRoots : BlockHeader :=
  h.withRoots ⟨0, 0, 0⟩

/-- What the engine calls and this development does not open: hash functions, the signature scheme (`sign` takes the
randomness as its last argument), the RLP codecs and the virtual machine. -/
structure Env where
  headerHash : BlockHeader → Hash
  /-- `Hash(rlp(height, view, idx, timestamp))` -/
  fieldsHash : Int → Int → Nat → Nat → Hash
  txHash : Bytes → Hash
  sign : NodeID → Hash → Nat → Bytes
  verify : NodeID → Bytes → Hash → Bool
  encodeBlock : Block → Bytes
  decodeBlock : Bytes → Option Block
  /-- header, transaction hashes and block hash of a proposal that carries hashes only -/
  encodeProposal : BlockHeader → List Hash → Bytes
  decodeProposal : Bytes → Option (BlockHeader × List Hash × Hash)
  verifySenders : List Bytes → Bool
  runTransactions : BlockInfo → BlockHeader → List Bytes → Option ExecutionRoots

variable (E : Env) (b : Block)

def Block.hash : Hash :=
  E.headerHash b.header

def Block.info : BlockInfo where
  hash := b.hash E
  number := b.header.number
  stateRoot := b.header.stateRoot

/-- `BlockVerifier::executeBlock`: the executed block and whether there is an execution context. A block below the
number the verifier is executing is turned away untouched. A header that came with a receipts root (one that had been
executed before) has to come out of execution unchanged. -/
def executeBlock (executingNumber : Int) (parent : BlockInfo) (b : Block) : Block × Bool :=
  if b.header.number < executingNumber then (b, false)
  else
    match E.runTransactions parent b.header.withoutRoots b.transactions with
    | none => (b, false)
    | some r =>
      let header := b.header.withRoots r
      let executed := { b with header := header }
      if b.header.receiptsRoot ≠ 0 ∧ E.headerHash b.header ≠ E.headerHash header then
        (executed, false)
      else (executed, true)

@[simp]
lemma BlockHeader.withRoots_number : (h.withRoots r).number = h.number := rfl

lemma executeBlock_block {E : Env} {n : Int} {b : Block} :
    ∃ h, (executeBlock E n p b).1 = { b with header := h } ∧ h.withoutRoots = b.header.withoutRoots := by
  unfold executeBlock
  split
  · exact ⟨b.header, rfl, rfl⟩
  cases E.runTransactions p b.header.withoutRoots b.transactions with
  | none => exact ⟨b.header, rfl, rfl⟩
  | some r =>
    refine ⟨b.header.withRoots r, ?_, rfl⟩
    simp only
    split <;> rfl

lemma executeBlock_of_le {E : Env} {n : Int} {b : Block} (h : n ≤ b.header.number) :
    executeBlock E n p b = executeBlock E b.header.number p b := by
  unfold executeBlock
  rw [if_neg (not_lt.mpr h), if_neg (lt_irrefl _)]

end FiscoBcos
