import FiscoBcos.Chain.BlockChain
import FiscoBcos.Chain.TransactionsRoot
import FiscoBcos.Lib.MerkleProof
import FiscoBcos.Lib.Run

/-!
# Proofs of transactions

`BlockChainImp::getTransactionProof` with its two caches, over `getMerkleProof` of `libdevcore`. The maps are filled by
many threads, in an order that is an input.
-/

namespace FiscoBcos

open List Option UInt8

variable {g : Nat} {tx s t : Bytes}

open Merkle Rlp

abbrev Parent2ChildListMap := List (Bytes × List Bytes)

variable {m : Parent2ChildListMap}

abbrev Child2ParentMap := List (Bytes × Bytes)

structure FillOrder where
  nodes : Parent2ChildListMap → Parent2ChildListMap
  nodes_perm : ∀ ws, (nodes ws).Perm ws
  parents : Child2ParentMap → Child2ParentMap
  parents_perm : ∀ qs, (parents qs).Perm qs

section

variable (E : Env) (asBytes : Hash → Bytes) (σ : FillOrder)

def transactionList (transactions : List Bytes) : List Bytes :=
  transactions.mapIdx (transactionBytes E asBytes)

def getMerkleProof (bytesCaches : List Bytes) : Parent2ChildListMap :=
  if bytesCaches = [] then []
  else
    (σ.nodes (proofWrites MAX_CHILD_COUNT E.txHash asBytes bytesCaches.length bytesCaches)).foldl addChildren []

def Block.getTransactionProof (b : Block) : Parent2ChildListMap :=
  getMerkleProof E asBytes σ (transactionList E asBytes b.transactions)

def parseMerkleMap (parent2ChildList : Parent2ChildListMap) : Child2ParentMap :=
  σ.parents ((assignments parent2ChildList).filter fun q => q.1 ≠ [])

def getHashNeed2Proof (index : Nat) (data : Bytes) : Bytes :=
  transactionBytes E asBytes index data

/-- `m_transactionWithProof` and `m_txsChild2ParentCache`, each for the block with one number. -/
structure ProofCache where
  transactionWithProof : Option (Int × Parent2ChildListMap) := none
  txsChild2ParentCache : Option (Int × Child2ParentMap) := none

namespace ProofCache

variable (cache : ProofCache) (b : Block)

def getParent2ChildListByTxsProofCache : Parent2ChildListMap × ProofCache :=
  match cache.transactionWithProof with
  | some (number, m) =>
    if number = b.header.number then (m, cache)
    else
      let m := b.getTransactionProof E asBytes σ
      (m, { cache with transactionWithProof := some (b.header.number, m) })
  | none =>
    let m := b.getTransactionProof E asBytes σ
    (m, { cache with transactionWithProof := some (b.header.number, m) })

def getChild2ParentCacheByTransaction (parent2ChildList : Parent2ChildListMap) : Child2ParentMap × ProofCache :=
  match cache.txsChild2ParentCache with
  | some (number, m) =>
    if number = b.header.number then (m, cache)
    else
      let m := parseMerkleMap σ parent2ChildList
      (m, { cache with txsChild2ParentCache := some (b.header.number, m) })
  | none =>
    let m := parseMerkleMap σ parent2ChildList
    (m, { cache with txsChild2ParentCache := some (b.header.number, m) })

/-- `none` is the null pointer, or a walk that has not come to its end. -/
def getTransactionProof (fuel index : Nat) : Option (List (List Bytes × List Bytes)) × ProofCache :=
  match b.transactions[index]? with
  | none => (none, cache)
  | some tx =>
    let p := cache.getParent2ChildListByTxsProofCache E asBytes σ b
    let q := p.2.getChild2ParentCacheByTransaction σ b p.1
    (path p.1 q.1 fuel (getHashNeed2Proof E asBytes index tx), q.2)

end ProofCache

structure ProofRequest where
  number : Int
  index : Nat
  fuel : Nat
  order : FillOrder

def ProofCache.serve (c : BlockChain) (cache : ProofCache) (r : ProofRequest) : ProofCache :=
  match c.getBlockByNumber r.number with
  | none => cache
  | some b => (cache.getTransactionProof E asBytes r.order b r.fuel r.index).2

end

section

variable {i j : Nat}

lemma appendInt_of_ge (h : 0x80 ≤ i) (h' : i < 2 ^ 32) :
    appendInt i = ofNat (0x80 + (bigEndian i).length) :: bigEndian i := by
  have hle : (bigEndian i).length ≤ 4 := length_bigEndian_le.mpr (by omega)
  unfold appendInt
  rw [if_neg (by omega), if_neg (by omega)]
  dsimp only
  rw [if_pos (by omega)]
  rfl

lemma length_appendInt_of_lt_128 (h : i < 0x80) : (appendInt i).length = 1 := by
  unfold appendInt
  split_ifs <;> rfl

lemma head_appendInt (h : i < 2 ^ 32) : ∃ b rest, appendInt i = b :: rest ∧
      (i < 0x80 → b.toNat ≤ 0x80 ∧ rest = [] ∧ b.toNat % 0x80 = i) ∧
      (0x80 ≤ i → b.toNat = 0x80 + rest.length ∧ rest = bigEndian i ∧ 0 < rest.length) := by
  by_cases hsmall : i < 0x80
  · by_cases hzero : i = 0
    · subst hzero
      exact ⟨0x80, [], rfl, fun _ => by decide, fun h => absurd h (by decide)⟩
    refine ⟨ofNat i, [], ?_, fun _ => ?_, fun h => absurd h (by omega)⟩
    · unfold appendInt
      rw [if_neg hzero, if_pos hsmall]
    · rw [toNat_ofNat']
      refine ⟨by omega, rfl, by omega⟩
  · have hle : (bigEndian i).length ≤ 4 := length_bigEndian_le.mpr (by omega)
    have hpos : ¬(bigEndian i).length ≤ 0 := by
      rw [length_bigEndian_le]
      omega
    refine ⟨_, _, appendInt_of_ge (by omega) h, fun h => absurd h hsmall, fun _ => ⟨?_, rfl, by omega⟩⟩
    rw [toNat_ofNat']
    omega

lemma appendInt_prefix_free (hi : i < 2 ^ 32) (hj : j < 2 ^ 32)
    (h : (appendInt i).map toNat ++ s = (appendInt j).map toNat ++ t) : i = j := by
  obtain ⟨b, rest, heq, hsmall, hlarge⟩ := head_appendInt hi
  obtain ⟨b', rest', heq', hsmall', hlarge'⟩ := head_appendInt hj
  rw [heq, heq', map_cons, map_cons, cons_append, cons_append] at h
  obtain ⟨hhead, htail⟩ := cons.inj h
  by_cases hi' : i < 0x80
  · by_cases hj' : j < 0x80
    · have := (hsmall hi').2.2
      omega
    · have := hsmall hi'
      omega
  · by_cases hj' : j < 0x80
    · have := hlarge (by omega)
      omega
    obtain ⟨hb, hrest, -⟩ := hlarge (by omega)
    obtain ⟨hb', hrest', -⟩ := hlarge' (by omega)
    have hlength : (rest.map toNat).length = (rest'.map toNat).length := by
      rw [length_map, length_map]
      omega
    have hsame := map_injective_iff.mpr (fun a b h => UInt8.toNat_inj.mp h) (append_inj_left htail hlength)
    rw [hrest, hrest'] at hsame
    rw [← ofBigEndian_bigEndian i, hsame, ofBigEndian_bigEndian]

lemma length_appendInt_group {k : Nat} (hk : k < 16) (hi : i * 16 + k < 2 ^ 32) :
    (appendInt (i * 16 + k)).length = (appendInt (i * 16)).length := by
  by_cases hsmall : i < 8
  · rw [length_appendInt_of_lt_128 (by omega), length_appendInt_of_lt_128 (by omega)]
  rw [appendInt_of_ge (by omega) hi, appendInt_of_ge (by omega) (by omega), List.length_cons, List.length_cons]
  congr 1
  -- a power of 256 is a multiple of 16, or 1
  have hpow : ∀ n, i * 16 + k < 256 ^ n ↔ i * 16 < 256 ^ n := by
    intro n
    cases n with
    | zero | succ n =>
      omega
  apply le_antisymm
  · rw [length_bigEndian_le, hpow, ← length_bigEndian_le]
  · rw [length_bigEndian_le, ← hpow, ← length_bigEndian_le]

lemma length_appendInt_bounds (h : i < 2 ^ 32) :
    1 ≤ (appendInt i).length ∧ (appendInt i).length ≤ 5 ∧ (i < 65536 → (appendInt i).length ≤ 3) := by
  by_cases hsmall : i < 0x80
  · rw [length_appendInt_of_lt_128 hsmall]
    omega
  rw [appendInt_of_ge (by omega) h, List.length_cons]
  have hle : (bigEndian i).length ≤ 4 := length_bigEndian_le.mpr (by omega)
  refine ⟨by omega, by omega, fun hi => ?_⟩
  have : (bigEndian i).length ≤ 2 := length_bigEndian_le.mpr (by omega)
  omega

end

section

variable {E : Env} {asBytes : Hash → Bytes} {txs : List Bytes}

lemma getElem?_transactionList (i : Nat) :
    (transactionList E asBytes txs)[i]? = txs[i]?.map (transactionBytes E asBytes i) :=
  getElem?_mapIdx

lemma length_transactionList : (transactionList E asBytes txs).length = txs.length :=
  length_mapIdx

lemma index_eq_of_prefix {i j : Nat} (hi : i < 2 ^ 32) (hj : j < 2 ^ 32) {tx' : Bytes}
    (h : transactionBytes E asBytes i tx ++ s = transactionBytes E asBytes j tx' ++ t) : i = j := by
  unfold transactionBytes at h
  rw [append_assoc, append_assoc] at h
  exact appendInt_prefix_free hi hj h

lemma nodup_transactionList (hmax : txs.length ≤ 2 ^ 32) : (transactionList E asBytes txs).Nodup := by
  rw [nodup_iff_getElem?_ne_getElem?]
  intro i j hij hj heq
  rw [length_transactionList] at hj
  rw [getElem?_transactionList, getElem?_transactionList, getElem?_eq_getElem hj,
    getElem?_eq_getElem (hij.trans hj), map_some, map_some, some.injEq] at heq
  have hsame : i = j := index_eq_of_prefix (s := []) (t := []) (by omega) (by omega) (by rw [heq])
  omega

lemma exists_leaf_of_mem_group {x : Bytes} (h : x ∈ group MAX_CHILD_COUNT (transactionList E asBytes txs) g) :
    ∃ k < 16, g * 16 + k < txs.length ∧ ∃ tx, x = transactionBytes E asBytes (g * 16 + k) tx := by
  obtain ⟨k, hk⟩ := List.getElem?_of_mem h
  have hlt := (List.getElem?_eq_some_iff.mp hk).1
  rw [length_group] at hlt
  unfold MAX_CHILD_COUNT at hlt
  unfold group MAX_CHILD_COUNT at hk
  rw [List.getElem?_take_of_lt (by omega), List.getElem?_drop, getElem?_transactionList] at hk
  obtain ⟨tx, htx, rfl⟩ := Option.map_eq_some_iff.mp hk
  exact ⟨k, by omega, (List.getElem?_eq_some_iff.mp htx).1, tx, rfl⟩

lemma length_flatten_group (hcol : Collisionless E asBytes) (hmax : txs.length ≤ 2 ^ 32) (g : Nat) :
    (group MAX_CHILD_COUNT (transactionList E asBytes txs) g).flatten.length =
      (group MAX_CHILD_COUNT (transactionList E asBytes txs) g).length * ((appendInt (g * 16)).length + 32) := by
  apply length_flatten_of_forall
  intro x hx
  obtain ⟨k, hk, hlt, tx, rfl⟩ := exists_leaf_of_mem_group hx
  rw [length_transactionBytes hcol, length_appendInt_group hk (by omega)]

lemma exists_flatten_group (h : g < groups MAX_CHILD_COUNT (transactionList E asBytes txs)) :
    g * 16 < txs.length ∧ ∃ tx rest, (group MAX_CHILD_COUNT (transactionList E asBytes txs) g).flatten =
        transactionBytes E asBytes (g * 16) tx ++ rest := by
  have hlt : g * 16 < (transactionList E asBytes txs).length := mul_lt_length_of_lt_groups (by decide) h
  rw [length_transactionList] at hlt
  refine ⟨hlt, ?_⟩
  have hfirst := head?_group (l := transactionList E asBytes txs) (show 0 < MAX_CHILD_COUNT by decide) g
  rw [show g * MAX_CHILD_COUNT = g * 16 from rfl, getElem?_transactionList, getElem?_eq_getElem hlt, map_some] at hfirst
  cases hgroup : group MAX_CHILD_COUNT (transactionList E asBytes txs) g with
  | nil =>
    rw [hgroup] at hfirst
    cases hfirst
  | cons x rest =>
    rw [hgroup] at hfirst
    cases hfirst
    exact ⟨_, rest.flatten, rfl⟩

lemma size_of_length_eq (hcol : Collisionless E asBytes) (hmax : txs.length ≤ 2 ^ 32) {m : Nat}
    (hg : g < groups MAX_CHILD_COUNT (transactionList E asBytes txs)) (hm : m ≤ 16)
    (h : (group MAX_CHILD_COUNT (transactionList E asBytes txs) g).flatten.length = m * 32) :
    65536 ≤ txs.length ∧ txs.length = g * 16 + 8 ∧ m = 9 := by
  have hlt := (exists_flatten_group hg).1
  rw [length_flatten_group hcol hmax, length_group, length_transactionList,
    show min MAX_CHILD_COUNT (txs.length - g * MAX_CHILD_COUNT) = min 16 (txs.length - g * 16) from rfl] at h
  obtain ⟨hpos, hle, hsmall⟩ := length_appendInt_bounds (show g * 16 < 2 ^ 32 by omega)
  generalize (appendInt (g * 16)).length = q at h hpos hle hsmall
  have hq : q = 1 ∨ q = 2 ∨ q = 3 ∨ q = 4 ∨ q = 5 := by omega
  rcases hq with rfl | rfl | rfl | rfl | rfl
  all_goals omega

/-- Hash collisions aside, all nodes of the tree over the transactions of a block are different. In a block of more than
65536 transactions, hashes that are made from themselves have to be left out as well. -/
theorem separated_transactionList (hcol : Collisionless E asBytes)
    (hmax : txs.length < 65536 ∨ txs.length ≤ 2 ^ 32 ∧ Acyclic E.txHash asBytes) :
    Separated MAX_CHILD_COUNT 32 E.txHash asBytes (transactionList E asBytes txs) := by
  have hsize : txs.length ≤ 2 ^ 32 := hmax.elim (fun h => by omega) And.left
  refine ⟨nodup_transactionList hsize, fun x hx => ?_, fun i hi j hj heq => ?_, fun g hg d j hj heq => ?_⟩
  · obtain ⟨i, hi, rfl⟩ := mem_mapIdx.mp hx
    rw [length_transactionBytes hcol]
    have := (length_appendInt_bounds (show i < 2 ^ 32 by omega)).1
    omega
  · obtain ⟨hlt, tx, rest, hflat⟩ := exists_flatten_group hi
    obtain ⟨hlt', tx', rest', hflat'⟩ := exists_flatten_group hj
    rw [hflat, hflat'] at heq
    have := index_eq_of_prefix (by omega) (by omega) heq
    omega
  · have hlevel : ∀ x ∈ (higherLevel MAX_CHILD_COUNT E.txHash asBytes)^[d + 1] (transactionList E asBytes txs),
        x.length = 32 :=
      fun x hx => length_of_mem_iterate (fun s => hcol.width _) hx
    have hlength := congrArg List.length heq
    rw [length_flatten_of_forall fun x hx => hlevel x (mem_of_mem_group hx)] at hlength
    generalize hupper : (higherLevel MAX_CHILD_COUNT E.txHash asBytes)^[d + 1] (transactionList E asBytes txs) =
      upper at hj heq hlength
    have hcount : (group MAX_CHILD_COUNT upper j).length = min 16 (upper.length - j * 16) :=
      length_group
    obtain ⟨hbig, hlast, hnine⟩ := size_of_length_eq hcol hsize hg (by omega) hlength
    obtain hsmall | ⟨-, hacyclic⟩ := hmax
    · omega
    -- both groups are the last ones of their levels
    have hgroup : g = groups MAX_CHILD_COUNT (transactionList E asBytes txs) - 1 := by
      unfold groups
      rw [length_transactionList, show MAX_CHILD_COUNT = 16 from rfl]
      omega
    have hgroup' : j = groups MAX_CHILD_COUNT upper - 1 := by
      unfold groups
      rw [show MAX_CHILD_COUNT = 16 from rfl]
      omega
    have hne : upper ≠ [] := length_pos_iff.mp (by omega)
    have hleaves : transactionList E asBytes txs ≠ [] := by
      rw [← length_pos_iff, length_transactionList]
      omega
    obtain ⟨x, hx⟩ := isSome_iff_exists.mp (getLast?_isSome.mpr hne)
    have hinfix : x <:+: (group MAX_CHILD_COUNT upper j).flatten := by
      apply infix_flatten_of_getLast?
      rw [hgroup', getLast?_group_last (by decide) hne, hx]
    rw [← heq, hgroup] at hinfix
    rw [← hupper] at hx
    exact not_infix_last_group (by decide) hleaves hacyclic hx hinfix

end

section

variable {E : Env} {asBytes : Hash → Bytes}

section

variable (E : Env) (asBytes : Hash → Bytes)

def IsChildMap (b : Block) (m : Parent2ChildListMap) : Prop :=
  ∃ σ, m = b.getTransactionProof E asBytes σ

def IsParentMap (b : Block) (m : Child2ParentMap) : Prop :=
  ∃ σ m', IsChildMap E asBytes b m' ∧ m = parseMerkleMap σ m'

structure ProofCache.Coherent (c : BlockChain) (cache : ProofCache) : Prop where
  children : ∀ q ∈ cache.transactionWithProof, ∃ b, c.getBlockByNumber q.1 = some b ∧ IsChildMap E asBytes b q.2
  parents : ∀ q ∈ cache.txsChild2ParentCache, ∃ b, c.getBlockByNumber q.1 = some b ∧ IsParentMap E asBytes b q.2

end

namespace ProofCache

variable {c : BlockChain} {cache : ProofCache} {b : Block} (σ : FillOrder)

lemma getBlockByNumber_header {n : Int} (hb : c.getBlockByNumber n = some b) :
    c.getBlockByNumber b.header.number = some b := by
  rwa [(BlockChain.number_of_getBlockByNumber hb).1]

section

variable (h : cache.Coherent E asBytes c) (hb : c.getBlockByNumber b.header.number = some b)

include h hb

lemma Coherent.getParent2ChildList : IsChildMap E asBytes b (cache.getParent2ChildListByTxsProofCache E asBytes σ b).1 ∧
      (cache.getParent2ChildListByTxsProofCache E asBytes σ b).2.Coherent E asBytes c := by
  have hnew : IsChildMap E asBytes b (b.getTransactionProof E asBytes σ) ∧ Coherent E asBytes c
        { cache with transactionWithProof := some (b.header.number, b.getTransactionProof E asBytes σ) } := by
    refine ⟨⟨σ, rfl⟩, fun q hq => ?_, h.parents⟩
    cases hq
    exact ⟨b, hb, σ, rfl⟩
  unfold getParent2ChildListByTxsProofCache
  cases hcache : cache.transactionWithProof with
  | none => exact hnew
  | some q =>
    dsimp only
    split
    · rename_i hnumber
      obtain ⟨b', hb', hmap⟩ := h.children q hcache
      rw [hnumber, hb] at hb'
      cases hb'
      exact ⟨hmap, h⟩
    · exact hnew

lemma Coherent.getChild2Parent
    (hm : IsChildMap E asBytes b m) : IsParentMap E asBytes b (cache.getChild2ParentCacheByTransaction σ b m).1 ∧
      (cache.getChild2ParentCacheByTransaction σ b m).2.Coherent E asBytes c := by
  have hnew : IsParentMap E asBytes b (parseMerkleMap σ m) ∧
      Coherent E asBytes c { cache with txsChild2ParentCache := some (b.header.number, parseMerkleMap σ m) } := by
    refine ⟨⟨σ, m, hm, rfl⟩, h.children, fun q hq => ?_⟩
    cases hq
    exact ⟨b, hb, σ, m, hm, rfl⟩
  unfold getChild2ParentCacheByTransaction
  cases hcache : cache.txsChild2ParentCache with
  | none => exact hnew
  | some q =>
    dsimp only
    split
    · rename_i hnumber
      obtain ⟨b', hb', hmap⟩ := h.parents q hcache
      rw [hnumber, hb] at hb'
      cases hb'
      exact ⟨hmap, h⟩
    · exact hnew

end

lemma coherent_serve (cache : ProofCache) (r : ProofRequest) (h : cache.Coherent E asBytes c) :
    (cache.serve E asBytes c r).Coherent E asBytes c := by
  unfold serve
  cases hb : c.getBlockByNumber r.number with
  | none => exact h
  | some b =>
    dsimp only
    unfold getTransactionProof
    cases b.transactions[r.index]? with
    | none => exact h
    | some =>
      have hb' := getBlockByNumber_header hb
      have hchild := h.getParent2ChildList r.order hb'
      exact (hchild.2.getChild2Parent r.order hb' hchild.1).2

end ProofCache

lemma climb_path_of_maps (hcol : Collisionless E asBytes) {b : Block}
    (hmax : b.transactions.length < 65536 ∨ b.transactions.length ≤ 2 ^ 32 ∧ Acyclic E.txHash asBytes)
    (hm : IsChildMap E asBytes b m) {m' : Child2ParentMap} (hm' : IsParentMap E asBytes b m') {index fuel : Nat}
    (htx : b.transactions[index]? = some tx) (hfuel : b.transactions.length + 2 ≤ fuel) :
    ∃ proof, path m m' fuel (getHashNeed2Proof E asBytes index tx) = some proof ∧
      climb (hashNodes E.txHash asBytes) (getHashNeed2Proof E asBytes index tx) proof =
        asBytes (calTransactionRoot E asBytes b.transactions) := by
  have hleaf : getHashNeed2Proof E asBytes index tx ∈ transactionList E asBytes b.transactions := by
    apply mem_of_getElem?
    rw [getElem?_transactionList, htx]
    rfl
  have hne : transactionList E asBytes b.transactions ≠ [] := ne_nil_of_mem hleaf
  have hwidth : ∀ s, (asBytes (E.txHash s)).length = 32 := fun s => hcol.width _
  have hnodup : (treeNodes MAX_CHILD_COUNT E.txHash asBytes
      (transactionList E asBytes b.transactions).length (transactionList E asBytes b.transactions)).Nodup :=
    treeNodes_nodup hwidth (hcol.bytes.comp hcol.transaction) (by decide) (separated_transactionList hcol hmax)
      (by decide) hne
  -- whatever the order, the maps hold the same nodes and parents
  have hchildren : ∀ m, IsChildMap E asBytes b m → m.Perm (proofWrites MAX_CHILD_COUNT E.txHash asBytes
      (transactionList E asBytes b.transactions).length (transactionList E asBytes b.transactions)) := by
    rintro m ⟨σ, rfl⟩
    unfold Block.getTransactionProof getMerkleProof
    rw [if_neg hne, foldl_addChildren_perm hnodup (σ.nodes_perm _)]
    exact σ.nodes_perm _
  obtain ⟨σ, children, hchild, rfl⟩ := hm'
  have hassigned : (parseMerkleMap σ children).Perm (assignments (proofWrites MAX_CHILD_COUNT E.txHash
      asBytes (transactionList E asBytes b.transactions).length (transactionList E asBytes b.transactions))) := by
    have hsame := (hchildren children hchild).flatMap_right fun e => e.2.map fun child => (child, e.1)
    refine (σ.parents_perm _).trans ((hsame.filter _).trans ?_)
    rw [filter_eq_self.mpr]
    · exact .refl _
    intro q hq
    have hnode := treeNodes_nonempty hwidth (by decide) (by decide) hne
      (leaves_mapIdx hcol hne).nonempty q.1 (mem_treeNodes_of_mem_assignments (by decide) hne hq)
    simpa using hnode
  apply climb_path (by decide) hnodup (hchildren m hm) hassigned hleaf
  rwa [length_transactionList]

/-- After any requests for blocks of a chain, the proof of a transaction of a block is found, and it ends in the root
that the header carries; and the root determines the leaves. -/
theorem transaction_proofs_verify (hcol : Collisionless E asBytes) :
    (∀ (c : BlockChain) (rs : List ProofRequest) (r : ProofRequest) (b : Block) (tx : Bytes),
      c.getBlockByNumber r.number = some b → b.transactions[r.index]? = some tx →
      (b.transactions.length < 65536 ∨ b.transactions.length ≤ 2 ^ 32 ∧ Acyclic E.txHash asBytes) →
      b.transactions.length + 2 ≤ r.fuel →
      ∃ proof, ((Machine.run (ProofCache.serve E asBytes c) {} rs).getTransactionProof E asBytes r.order b r.fuel
          r.index).1 = some proof ∧
        climb (hashNodes E.txHash asBytes) (getHashNeed2Proof E asBytes r.index tx) proof =
          asBytes (calTransactionRoot E asBytes b.transactions)) ∧
      ∀ txs txs' : List Bytes,
        getHash256 E asBytes (transactionList E asBytes txs) = getHash256 E asBytes (transactionList E asBytes txs') →
          transactionList E asBytes txs = transactionList E asBytes txs' := by
  constructor
  · intro c rs r b tx hb htx hmax hfuel
    have hcoherent : (Machine.run (ProofCache.serve E asBytes c) {} rs).Coherent E asBytes c := by
      refine Machine.run_induction (fun cache : ProofCache => cache.Coherent E asBytes c) ProofCache.coherent_serve ?_ rs
      exact ⟨fun _ hq => absurd hq (not_mem_none _), fun _ hq => absurd hq (not_mem_none _)⟩
    have hb' := ProofCache.getBlockByNumber_header hb
    have hchild := hcoherent.getParent2ChildList r.order hb'
    have hparent := hchild.2.getChild2Parent r.order hb' hchild.1
    unfold ProofCache.getTransactionProof
    rw [htx]
    exact climb_path_of_maps hcol hmax hchild.1 hparent.1 htx hfuel
  · intro txs txs' h
    rw [calTransactionRoot_injective hcol h]

end

namespace Symbolic

lemma lt_listCode {x : Nat} {xs : List Nat} (h : x ∈ xs) : x < listCode xs := by
  induction xs with
  | nil => cases h
  | cons y ys ih =>
    unfold listCode
    cases mem_cons.mp h with
    | inl =>
      have := Nat.left_le_pair y (listCode ys)
      omega
    | inr hmem =>
      have := Nat.right_le_pair y (listCode ys)
      have := ih hmem
      omega

lemma acyclic_env : Acyclic env.txHash hashBytes :=
  ⟨id, fun _ _ h => lt_listCode (h.subset mem_cons_self)⟩

def chainOfTransactions (n : Nat) : BlockChain where
  blocks := [{ transactions := (range n).map fun i => [i] }]
  nonempty := cons_ne_nil _ _
  numbered := by
    intro i b h
    cases i with
    | zero =>
      cases h
      rfl
    | succ => cases h

def inOrder : FillOrder where
  nodes := id
  nodes_perm := fun _ => .refl _
  parents := id
  parents_perm := fun _ => .refl _

theorem transaction_proofs_verify_seventeen :
    ∃ b ∈ (chainOfTransactions 17).getBlockByNumber 0, b.transactions.length = 17 ∧
      ∃ proof, ((Machine.run (ProofCache.serve env hashBytes (chainOfTransactions 17)) {}
          [⟨0, 3, 19, inOrder⟩]).getTransactionProof env hashBytes inOrder b 19 16).1 = some proof ∧
        climb (hashNodes env.txHash hashBytes) (getHashNeed2Proof env hashBytes 16 [16]) proof =
          hashBytes (calTransactionRoot env hashBytes b.transactions) :=
  ⟨{ transactions := (List.range 17).map fun i => [i] }, rfl, rfl,
    (transaction_proofs_verify collisionless_env).1 (chainOfTransactions 17) [⟨0, 3, 19, inOrder⟩] ⟨0, 16, 19, inOrder⟩
      _ [16] rfl rfl (.inr ⟨by decide, acyclic_env⟩) (by decide)⟩

end Symbolic

end FiscoBcos
