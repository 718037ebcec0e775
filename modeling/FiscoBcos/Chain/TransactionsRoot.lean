import FiscoBcos.Chain.Symbolic
import FiscoBcos.Lib.Merkle
import FiscoBcos.Lib.Rlp

/-!
# The root of the transactions of a block

`Block::calTransactionRootV2_2_0`, over `getHash256` of `libdevcore`: a Merkle tree over the hashes of the transactions,
each with its index in front.
-/

namespace FiscoBcos

open List Option

def MAX_CHILD_COUNT : Nat := 16

section

variable (E : Env) (asBytes : Hash → Bytes)

def getHash256 (bytesCaches : List Bytes) : Hash :=
  Merkle.root MAX_CHILD_COUNT E.txHash asBytes bytesCaches

def transactionBytes (i : Nat) (tx : Bytes) : Bytes :=
  (Rlp.appendInt i).map UInt8.toNat ++ asBytes (E.txHash tx)

def calTransactionRoot (transactions : List Bytes) : Hash :=
  getHash256 E asBytes (transactions.mapIdx (transactionBytes E asBytes))

def Block.Bound (b : Block) : Prop :=
  b.header.transactionsRoot = calTransactionRoot E asBytes b.transactions

instance (b : Block) : Decidable (b.Bound E asBytes) :=
  inferInstanceAs (Decidable (_ = _))

/-- Hashes have no collisions and 32 bytes. -/
structure Collisionless : Prop where
  header : Function.Injective E.headerHash
  transaction : Function.Injective E.txHash
  bytes : Function.Injective asBytes
  width : ∀ h, (asBytes h).length = 32

end

variable {E : Env} {asBytes : Hash → Bytes}

lemma length_appendInt_of_lt {i : Nat} (h : i < MAX_CHILD_COUNT) : (Rlp.appendInt i).length = 1 := by
  decide +revert

section

variable (hcol : Collisionless E asBytes)

include hcol

lemma length_transactionBytes (i : Nat) (tx : Bytes) :
    (transactionBytes E asBytes i tx).length = (Rlp.appendInt i).length + 32 := by
  unfold transactionBytes
  rw [length_append, length_map, hcol.width]

lemma length_flatten_mapIdx {txs : List Bytes} {k : Nat} (h : k + txs.length ≤ MAX_CHILD_COUNT) :
    ((txs.mapIdx fun i => transactionBytes E asBytes (k + i)).flatten).length = 33 * txs.length := by
  induction txs generalizing k with
  | nil => rfl
  | cons tx txs ih =>
    rw [length_cons] at h
    have hrest := ih (k := k + 1) (by omega)
    rw [mapIdx_cons, flatten_cons, length_append, length_transactionBytes hcol,
      length_appendInt_of_lt (by omega), length_cons]
    simp only [show ∀ i, k + 1 + i = k + (i + 1) by omega] at hrest
    omega

lemma leaves_mapIdx {txs : List Bytes} (hne : txs.mapIdx (transactionBytes E asBytes) ≠ []) :
    Merkle.Leaves MAX_CHILD_COUNT 32 (txs.mapIdx (transactionBytes E asBytes)) where
  nonempty := by
    intro x hx hnil
    obtain ⟨i, hi, rfl⟩ := mem_mapIdx.mp hx
    have hlen := congrArg length hnil
    rw [length_transactionBytes hcol, length_nil] at hlen
    omega
  size := by
    have hfirst : (txs.mapIdx (transactionBytes E asBytes)).take MAX_CHILD_COUNT =
        (txs.take MAX_CHILD_COUNT).mapIdx fun i => transactionBytes E asBytes (0 + i) := by
      apply ext_getElem?
      intro i
      by_cases hi : i < MAX_CHILD_COUNT
      · simp only [getElem?_take_of_lt hi, getElem?_mapIdx, zero_add]
      · simp only [getElem?_take, getElem?_mapIdx, if_neg hi, map_none]
    have hlen : (txs.take MAX_CHILD_COUNT).length ≤ MAX_CHILD_COUNT := by
      rw [length_take]
      omega
    have hpos : 0 < txs.length := by
      rw [← length_mapIdx]
      exact length_pos_iff.mpr hne
    rw [hfirst, length_flatten_mapIdx hcol (by omega), length_take]
    unfold MAX_CHILD_COUNT
    omega

lemma calTransactionRoot_injective : Function.Injective (calTransactionRoot E asBytes) := by
  intro txs txs' h
  have halign : Merkle.Aligned (txs.mapIdx (transactionBytes E asBytes))
      (txs'.mapIdx (transactionBytes E asBytes)) := by
    intro i x y hx hy
    rw [getElem?_mapIdx] at hx hy
    obtain ⟨tx, -, rfl⟩ := map_eq_some_iff.mp hx
    obtain ⟨tx', -, rfl⟩ := map_eq_some_iff.mp hy
    rw [length_transactionBytes hcol, length_transactionBytes hcol]
  have hlists := Merkle.root_inj (by decide) (by decide) (fun s => hcol.width _) hcol.transaction hcol.bytes halign
    (leaves_mapIdx hcol) (leaves_mapIdx hcol) h
  apply ext_getElem?
  intro i
  have hget := congrArg (·[i]?) hlists
  simp only [getElem?_mapIdx] at hget
  cases htx : txs[i]? with
  | none =>
    rw [htx] at hget
    cases htx' : txs'[i]? with
    | none => rfl
    | some =>
      rw [htx'] at hget
      cases hget
  | some =>
    rw [htx] at hget
    cases htx' : txs'[i]? with
    | none =>
      rw [htx'] at hget
      cases hget
    | some =>
      rw [htx', map_some, map_some, some.injEq] at hget
      have hhash := append_cancel_left hget
      rw [hcol.transaction (hcol.bytes hhash)]

lemma Block.Bound.transactions_eq {b b' : Block} (hb : b.Bound E asBytes)
    (hb' : b'.Bound E asBytes) (h : b.hash E = b'.hash E) : b.transactions = b'.transactions := by
  have hheader : b.header = b'.header := hcol.header h
  apply calTransactionRoot_injective hcol
  rw [← hb, ← hb', hheader]

end

namespace Symbolic

def hashBytes (h : Hash) : Bytes :=
  h :: replicate 31 0

lemma collisionless_env : Collisionless env hashBytes where
  header := headerHash_injective
  transaction := listCode_injective
  bytes := fun _ _ h => (cons.inj h).1
  width := fun _ => rfl

end Symbolic

end FiscoBcos
