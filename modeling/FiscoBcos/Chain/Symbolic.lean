import FiscoBcos.Chain.Block

/-!
# A symbolic environment

Hashing is an injective coding and a signature is the triple of key, hash and randomness, so that the assumptions made
elsewhere hold together.
-/

namespace FiscoBcos

namespace Symbolic

def intCode : Int → Nat
  | .ofNat n => 2 * n
  | .negSucc n => 2 * n + 1

def listCode : List Nat → Nat
  | [] => 0
  | x :: xs => Nat.pair x (listCode xs) + 1

def headerCode (h : BlockHeader) : Nat :=
  Nat.pair h.parentHash
    (Nat.pair
      (Nat.pair (Nat.pair h.stateRoot h.transactionsRoot)
        (Nat.pair (Nat.pair h.receiptsRoot h.dbHash) (Nat.pair h.logBloom (intCode h.number))))
      (Nat.pair (Nat.pair (Nat.pair h.gasLimit h.gasUsed) (Nat.pair h.timestamp h.sealer))
        (Nat.pair (listCode (h.extraData.map listCode)) (listCode h.sealerList))))

def verify (key : NodeID) (sig : Bytes) (h : Hash) : Bool :=
  match sig with
  | [key', h', _] => key' == key && h' == h
  | _ => false

def encodeBlock (b : Block) : Bytes :=
  [b.header.number.toNat, b.header.parentHash, b.header.timestamp, b.header.sealer,
    b.header.sealerList.length] ++ (b.header.sealerList ++ b.transactions.flatten)

def decodeHeader : Bytes → Option (BlockHeader × List Nat)
  | number :: parentHash :: timestamp :: sealer :: n :: rest =>
    some
      ({ number := number, parentHash := parentHash, timestamp := timestamp, sealer := sealer,
         sealerList := rest.take n }, rest.drop n)
  | _ => none

def decodeBlock (bytes : Bytes) : Option Block :=
  (decodeHeader bytes).map fun q => { header := q.1, transactions := q.2.map fun t => [t] }

def env : Env where
  headerHash := fun h => 2 * headerCode h + 1
  fieldsHash := fun height view idx timestamp =>
    2 * Nat.pair (Nat.pair (intCode height) (intCode view)) (Nat.pair idx timestamp) + 2
  txHash := listCode
  sign := fun key h nonce => [key, h, nonce]
  verify := verify
  encodeBlock := encodeBlock
  decodeBlock := decodeBlock
  encodeProposal := fun h txsHash => encodeBlock { header := h } ++ txsHash
  decodeProposal := fun bytes => (decodeHeader bytes).map fun q => (q.1, q.2, 2 * headerCode q.1 + 1)
  verifySenders := fun _ => true
  runTransactions := fun info _ txs =>
    some
      { receiptsRoot := listCode (txs.map listCode) + 1, stateRoot := info.stateRoot + txs.length,
        dbHash := 0 }

lemma intCode_injective : Function.Injective intCode := by
  intro a b h
  cases a <;> cases b <;> simp only [intCode] at h
  · congr 1; omega
  · omega
  · omega
  · congr 1; omega

lemma listCode_injective : Function.Injective listCode := by
  intro l
  induction l with
  | nil =>
    intro l' h
    cases l' with
    | nil => rfl
    | cons => simp [listCode] at h
  | cons x xs ih =>
    intro l' h
    cases l' with
    | nil => simp [listCode] at h
    | cons =>
      simp only [listCode, Nat.add_right_cancel_iff, Nat.pair_eq_pair] at h
      rw [h.1, ih h.2]

lemma headerHash_injective : Function.Injective env.headerHash := by
  intro a b h
  have hcode : headerCode a = headerCode b := by
    change 2 * headerCode a + 1 = 2 * headerCode b + 1 at h
    omega
  simp only [headerCode, Nat.pair_eq_pair, listCode_injective.eq_iff, intCode_injective.eq_iff,
    (List.map_injective_iff.mpr listCode_injective).eq_iff] at hcode
  cases a
  cases b
  simp_all

lemma headerHash_ne_zero (h : BlockHeader) : env.headerHash h ≠ 0 :=
  Nat.succ_ne_zero _

lemma verify_sign (key : NodeID) (h : Hash) (nonce : Nat) : env.verify key (env.sign key h nonce) h = true := by
  simp [env, verify]

end Symbolic

end FiscoBcos
