import FiscoBcos.TxPool.NonceCheck

/-!
# The window of nonces is exact

A nonce that stands in two blocks is erased with the older one, so the window is exact as long as no nonce comes back
within its length.
-/

namespace FiscoBcos

open TxChain List Machine Std.ExtTreeMap

variable {is : List Nat} {nonce first : Nat}

namespace TxChain

variable {chain : TxChain} {i : Nat} {block : List Transaction}

lemma getBlockByNumber_append (hi : i ≤ chain.number) :
    getBlockByNumber (chain ++ [block]) i = chain.getBlockByNumber i := by
  cases i with
  | zero => rfl
  | succ => exact getElem?_append_left hi

lemma nonces_append (hi : i ≤ chain.number) : nonces (chain ++ [block]) i = chain.nonces i := by
  unfold nonces getNonces
  rw [getBlockByNumber_append hi]

lemma nonces_last : nonces (chain ++ [block]) (chain.number + 1) = getAllNonces block := by
  simp [nonces, getNonces, getBlockByNumber, number]

lemma nonces_of_lt (hi : chain.number < i) : chain.nonces i = [] := by
  cases i with
  | zero => rfl
  | succ n =>
    have hnone : chain.getBlockByNumber (n + 1) = none := getElem?_eq_none (Nat.lt_succ_iff.mp hi)
    unfold nonces getNonces
    rw [hnone]
    rfl

def Spread (limit : Nat) (chain : TxChain) : Prop :=
  ∀ a b nonce, a < b → b ≤ a + limit → nonce ∈ chain.nonces a → nonce ∉ chain.nonces b

lemma spread_nil (limit : Nat) : Spread limit [] := by
  intro a b nonce _ _ ha
  cases a with
  | zero => cases ha
  | succ =>
    cases ha

lemma Spread.append {limit : Nat} (h : Spread limit chain)
    (hblock : ∀ a nonce, chain.number + 1 ≤ a + limit → nonce ∈ chain.nonces a → nonce ∉ getAllNonces block) :
    Spread limit (chain ++ [block]) := by
  intro a b nonce hab hb ha
  by_cases hlast : b ≤ chain.number
  · rw [nonces_append (hab.le.trans hlast)] at ha
    rw [nonces_append hlast]
    exact h a b nonce hab hb ha
  by_cases hnew : b = chain.number + 1
  · subst hnew
    rw [nonces_append (Nat.lt_succ_iff.mp hab)] at ha
    rw [nonces_last]
    exact hblock a nonce hb ha
  · have hlength : number (chain ++ [block]) = chain.number + 1 := by simp [number]
    rw [nonces_of_lt (by omega)]
    exact not_mem_nil

end TxChain

variable {block : List Transaction} {c' : TransactionNonceCheck}

namespace TransactionNonceCheck

variable {chain : TxChain} {c : TransactionNonceCheck}

/-- The second cache holds nonces of blocks up to the last one that was taken in. -/
def Cached (chain : TxChain) (c : TransactionNonceCheck) : Prop :=
  ∀ i nonceVec, c.blockNonceCache[i]? = some nonceVec → i ≤ chain.number ∧ nonceVec = chain.getNonces i

structure Same (c c' : TransactionNonceCheck) : Prop where
  startblk : c'.startblk = c.startblk
  endblk : c'.endblk = c.endblk
  maxBlockLimit : c'.maxBlockLimit = c.maxBlockLimit
  blockNumber : c'.blockNumber = c.blockNumber

lemma Same.trans {c'' : TransactionNonceCheck} (h : Same c c') (h' : Same c' c'') : Same c c'' :=
  ⟨h'.1.trans h.1, h'.2.trans h.2, h'.3.trans h.3, h'.4.trans h.4⟩

lemma same_expire (i : Nat) : Same c (c.expire chain i) :=
  ⟨rfl, rfl, rfl, rfl⟩

lemma same_takeIn (i : Nat) : Same c (c.takeIn chain i) := by
  unfold takeIn getNonceAndUpdateCache
  dsimp only
  split <;> exact ⟨rfl, rfl, rfl, rfl⟩

variable {i : Nat} {tx : Transaction}

section

variable (h : Cached chain c)

include h

lemma getNonce_eq (i : Nat) (update : Bool) : (c.getNonceAndUpdateCache chain i update).1 = chain.getNonces i := by
  unfold getNonceAndUpdateCache
  cases hcached : c.blockNonceCache[i]? with
  | some nonceVec => exact (h i nonceVec hcached).2
  | none =>
    dsimp only
    split <;> rfl

lemma cached_expire (i : Nat) : Cached chain (c.expire chain i) := by
  intro j nonceVec hj
  change (c.blockNonceCache.erase i)[j]? = some nonceVec at hj
  rw [getElem?_erase] at hj
  split at hj
  · cases hj
  · exact h j nonceVec hj

lemma mem_expire : nonce ∈ (c.expire chain i).cache ↔ nonce ∈ c.cache ∧ nonce ∉ chain.nonces i := by
  change nonce ∈ c.cache \ ((c.getNonceAndUpdateCache chain i false).1.getD []).toFinset ↔ _
  rw [getNonce_eq h, Finset.mem_sdiff, mem_toFinset]
  rfl

lemma foldl_expire : Cached chain (is.foldl (expire chain) c) ∧ Same c (is.foldl (expire chain) c) ∧
      ∀ nonce, nonce ∈ (is.foldl (expire chain) c).cache ↔ nonce ∈ c.cache ∧ ∀ i ∈ is, nonce ∉ chain.nonces i := by
  induction is generalizing c with
  | nil => exact ⟨h, ⟨rfl, rfl, rfl, rfl⟩, by simp⟩
  | cons i is ih =>
    obtain ⟨hcached, hsame, hmem⟩ := ih (cached_expire h i)
    refine ⟨hcached, Same.trans (same_expire i) hsame, fun nonce => ?_⟩
    rw [foldl_cons, hmem, mem_expire h, forall_mem_cons, and_assoc]

lemma cached_takeIn (hi : i ≤ chain.number) : Cached chain (c.takeIn chain i) := by
  have hvalue := getNonce_eq h i true
  unfold getNonceAndUpdateCache at hvalue
  dsimp only at hvalue
  unfold takeIn getNonceAndUpdateCache
  dsimp only
  rw [hvalue]
  split
  · intro j nonceVec hj
    rw [Std.ExtTreeMap.getElem?_insert] at hj
    split at hj
    · next heq =>
      cases hj
      rw [← Std.LawfulEqCmp.compare_eq_iff_eq.mp heq]
      exact ⟨hi, rfl⟩
    · exact h j nonceVec hj
  · exact h

lemma mem_takeIn : nonce ∈ (c.takeIn chain i).cache ↔ nonce ∈ c.cache ∨ nonce ∈ chain.nonces i := by
  have hcache : (c.getNonceAndUpdateCache chain i true).2.cache = c.cache := by
    unfold getNonceAndUpdateCache
    dsimp only
    split <;> rfl
  change nonce ∈ (c.getNonceAndUpdateCache chain i true).2.cache ∪
    ((c.getNonceAndUpdateCache chain i true).1.getD []).toFinset ↔ _
  rw [hcache, getNonce_eq h, Finset.mem_union, mem_toFinset]
  rfl

lemma foldl_takeIn (his : ∀ i ∈ is, i ≤ chain.number) :
    Cached chain (is.foldl (takeIn chain) c) ∧ Same c (is.foldl (takeIn chain) c) ∧
      ∀ nonce, nonce ∈ (is.foldl (takeIn chain) c).cache ↔ nonce ∈ c.cache ∨ ∃ i ∈ is, nonce ∈ chain.nonces i := by
  induction is generalizing c with
  | nil => exact ⟨h, ⟨rfl, rfl, rfl, rfl⟩, by simp⟩
  | cons i is ih =>
    rw [forall_mem_cons] at his
    obtain ⟨hcached, hsame, hmem⟩ := ih (cached_takeIn h his.1) his.2
    refine ⟨hcached, Same.trans (same_takeIn i) hsame, fun nonce => ?_⟩
    rw [foldl_cons, hmem, mem_takeIn h, exists_mem_cons_iff, or_assoc]

end

structure Exact (chain : TxChain) (c : TransactionNonceCheck) : Prop where
  cached : Cached chain c
  endblk : c.endblk ≤ chain.number
  startblk : c.startblk = c.endblk - c.maxBlockLimit
  blockNumber : c.blockNumber = c.endblk
  mem_cache : ∀ nonce, nonce ∈ c.cache ↔ ∃ i, max 1 c.startblk ≤ i ∧ i ≤ c.endblk ∧ nonce ∈ chain.nonces i

lemma mem_numbers {last : Nat} : i ∈ numbers first last ↔ first ≤ i ∧ i ≤ last := by
  unfold numbers
  rw [mem_range'_1]
  omega

def moved (chain : TxChain) (c : TransactionNonceCheck) : TransactionNonceCheck :=
  { c with
    blockNumber := chain.number, endblk := chain.number, startblk := chain.number - c.maxBlockLimit }

lemma updateCache_eq (rebuild : Bool) : c.updateCache chain rebuild =
    (numbers (max ((if rebuild then 0 else c.endblk) + 1) (moved chain c).startblk) chain.number).foldl (takeIn chain)
      (if rebuild then { moved chain c with cache := ∅ }
        else (range' c.startblk ((moved chain c).startblk - c.startblk)).foldl (expire chain) (moved chain c)) := by
  have hstart : (if chain.number > c.maxBlockLimit then chain.number - c.maxBlockLimit else 0) =
      chain.number - c.maxBlockLimit := by
    split <;> omega
  unfold updateCache
  dsimp only
  rw [hstart]
  rfl

lemma exact_foldl_takeIn (hcached : Cached chain c') (hsame : Same (moved chain c) c')
    (hmem : ∀ nonce, (nonce ∈ c'.cache ∨ ∃ i, first ≤ i ∧ i ≤ chain.number ∧ nonce ∈ chain.nonces i) ↔
      ∃ i, max 1 (moved chain c).startblk ≤ i ∧ i ≤ chain.number ∧ nonce ∈ chain.nonces i) :
    Exact chain ((numbers first chain.number).foldl (takeIn chain) c') ∧
      Same (moved chain c) ((numbers first chain.number).foldl (takeIn chain) c') := by
  obtain ⟨hcached', hsame', hcache⟩ := foldl_takeIn hcached fun i hi => (mem_numbers.mp hi).2
  have hall := hsame.trans hsame'
  refine ⟨⟨hcached', ?_, ?_, ?_, fun nonce => ?_⟩, hall⟩
  · rw [hall.endblk]
    exact le_rfl
  · rw [hall.startblk, hall.endblk, hall.maxBlockLimit]
    rfl
  · rw [hall.blockNumber, hall.endblk]
    rfl
  · rw [hcache, hall.startblk, hall.endblk]
    refine Iff.trans ?_ (hmem nonce)
    simp only [mem_numbers, and_assoc]

lemma exact_updateCache (hcached : Cached chain c) (rebuild : Bool)
    (h : rebuild = false → Exact chain c ∧ Spread c.maxBlockLimit chain) :
    Exact chain (c.updateCache chain rebuild) ∧ Same (moved chain c) (c.updateCache chain rebuild) := by
  rw [updateCache_eq]
  cases rebuild with
  | true =>
    have hempty : Cached chain { moved chain c with cache := ∅ } := hcached
    refine exact_foldl_takeIn hempty ⟨rfl, rfl, rfl, rfl⟩ fun nonce => ?_
    simp
  | false =>
    obtain ⟨hexact, hspread⟩ := h rfl
    rw [if_neg Bool.false_ne_true, if_neg Bool.false_ne_true]
    have hmoved : Cached chain (moved chain c) := hcached
    obtain ⟨hcached', hsame, hcache⟩ := foldl_expire hmoved
    refine exact_foldl_takeIn hcached' hsame fun nonce => ?_
    have hold : nonce ∈ (moved chain c).cache ↔ _ := hexact.mem_cache nonce
    have hstart := hexact.startblk
    have hend := hexact.endblk
    have hnew : (moved chain c).startblk = chain.number - c.maxBlockLimit := rfl
    rw [hcache, hold]
    simp only [mem_range'_1]
    constructor
    · rintro (⟨⟨i, hfirst, hlast, hi⟩, hexpired⟩ | ⟨i, hfirst, hlast, hi⟩)
      · refine ⟨i, ?_, by omega, hi⟩
        by_contra hlt
        exact hexpired i (by omega) hi
      · exact ⟨i, by omega, hlast, hi⟩
    · rintro ⟨i, hfirst, hlast, hi⟩
      by_cases hnewer : c.endblk < i
      · exact .inr ⟨i, by omega, hlast, hi⟩
      · -- a nonce of a block that stays is in no block that leaves
        refine .inl ⟨⟨i, by omega, by omega, hi⟩, fun j hj hmem => ?_⟩
        exact hspread j i nonce (by omega) (by omega) hmem hi

lemma isBlockLimitOk_iff : c.isBlockLimitOk tx = true ↔ tx.blockLimit ≠ Invalid256 ∧ c.blockNumber < tx.blockLimit ∧
      tx.blockLimit ≤ c.blockNumber + c.maxBlockLimit := by
  simp [isBlockLimitOk, and_assoc]

lemma isNonceOk_iff : c.isNonceOk tx = true ↔ tx.nonce ∉ c.cache := by
  unfold isNonceOk NonceCheck.isNonceOk
  split <;> simp_all

lemma not_ok_of_block (h : Exact chain c) (hend : c.endblk = chain.number) {b : Nat}
    (hblock : chain.getBlockByNumber b = some block)
    (htx : tx ∈ block) (hlimit : isBlockLimitOk { c with blockNumber := b - 1 } tx = true) :
    ¬(c.isNonceOk tx = true ∧ c.isBlockLimitOk tx = true) := by
  rintro ⟨hnonce, hnow⟩
  obtain ⟨-, hthen, hthen'⟩ := isBlockLimitOk_iff.mp hlimit
  obtain ⟨-, hnow, -⟩ := isBlockLimitOk_iff.mp hnow
  have hnumber := h.blockNumber
  have hstart := h.startblk
  dsimp only at hthen hthen'
  have hmem : tx.nonce ∈ chain.nonces b := by
    unfold nonces getNonces
    rw [hblock]
    exact mem_map_of_mem htx
  have hle : b ≤ chain.number := by
    by_contra hlt
    rw [nonces_of_lt (Nat.lt_of_not_le hlt)] at hmem
    cases hmem
  have hpos : b ≠ 0 := by
    rintro rfl
    cases hmem
  apply isNonceOk_iff.mp hnonce
  rw [h.mem_cache]
  exact ⟨b, by omega, by omega, hmem⟩

end TransactionNonceCheck

structure NonceWorld where
  chain : TxChain
  check : TransactionNonceCheck

variable {w : NonceWorld}

inductive NonceOp where
  | append (block : List Transaction)
  | updateCache (rebuild : Bool)

namespace NonceWorld

open TransactionNonceCheck

def step (w : NonceWorld) : NonceOp → NonceWorld
  | .append block => { w with chain := w.chain ++ [block] }
  | .updateCache rebuild => { w with check := w.check.updateCache w.chain rebuild }

def start (maxBlockLimit : Nat) (chain : TxChain) : NonceWorld :=
  ⟨chain, init chain maxBlockLimit⟩

def Fresh (limit : Nat) (w : NonceWorld) : NonceOp → Prop
  | .append block => ∀ a nonce, w.chain.number + 1 ≤ a + limit → nonce ∈ w.chain.nonces a →
      nonce ∉ getAllNonces block
  | .updateCache _ => True

structure Exact (limit : Nat) (w : NonceWorld) : Prop where
  maxBlockLimit : w.check.maxBlockLimit = limit
  spread : Spread limit w.chain
  exact : w.check.Exact w.chain

variable {limit : Nat}

lemma Exact.start {chain : TxChain} (h : Spread limit chain) : (start limit chain).Exact limit := by
  have hcached : Cached chain { maxBlockLimit := limit } := by
    intro i nonceVec hi
    cases getElem?_empty.symm.trans hi
  have hinit := exact_updateCache hcached true nofun
  exact ⟨hinit.2.maxBlockLimit, h, hinit.1⟩

lemma Exact.append (h : w.Exact limit)
    (hfresh : w.Fresh limit (.append block)) : (w.step (.append block)).Exact limit := by
  have hend := h.exact.endblk
  have hlength : number (w.chain ++ [block]) = w.chain.number + 1 := by simp [number]
  refine ⟨h.maxBlockLimit, h.spread.append hfresh, ⟨?_, ?_, h.exact.startblk, h.exact.blockNumber, ?_⟩⟩
  · intro i nonceVec hi
    obtain ⟨hle, hvalue⟩ := h.exact.cached i nonceVec hi
    change i ≤ number (w.chain ++ [block]) ∧ nonceVec = getNonces (w.chain ++ [block]) i
    unfold getNonces
    rw [getBlockByNumber_append hle]
    exact ⟨by omega, hvalue⟩
  · change w.check.endblk ≤ number (w.chain ++ [block])
    omega
  · intro nonce
    rw [show (w.step (.append block)).check = w.check from rfl, h.exact.mem_cache]
    apply exists_congr
    intro i
    constructor
    · rintro ⟨hfirst, hlast, hi⟩
      refine ⟨hfirst, hlast, ?_⟩
      change nonce ∈ nonces (w.chain ++ [block]) i
      rwa [nonces_append (by omega)]
    · rintro ⟨hfirst, hlast, hi⟩
      refine ⟨hfirst, hlast, ?_⟩
      change nonce ∈ nonces (w.chain ++ [block]) i at hi
      rwa [nonces_append (by omega)] at hi

lemma Exact.updateCache (h : w.Exact limit) (rebuild : Bool) : (w.step (.updateCache rebuild)).Exact limit := by
  have hupdate := exact_updateCache h.exact.cached rebuild fun _ => ⟨h.exact, by
    rw [h.maxBlockLimit]
    exact h.spread⟩
  exact ⟨hupdate.2.maxBlockLimit.trans h.maxBlockLimit, h.spread, hupdate.1⟩

lemma Exact.step (w : NonceWorld) (op : NonceOp) (hfresh : w.Fresh limit op)
    (h : w.Exact limit) : (w.step op).Exact limit := by
  cases op with
  | append => exact h.append hfresh
  | updateCache rebuild => exact h.updateCache rebuild

/-- After a call the cache holds the nonces of the blocks in the window, and no transaction of a block that was within
its limit when the block was made passes both checks. -/
theorem window_exact (maxBlockLimit : Nat) (chain : TxChain) (hchain : Spread maxBlockLimit chain)
    (ops : List NonceOp) (hops : Along step (Fresh maxBlockLimit) (start maxBlockLimit chain) ops)
    (rebuild : Bool) :
    let w := run step (start maxBlockLimit chain) (ops ++ [.updateCache rebuild])
    let n := w.chain.number
    (∀ nonce, nonce ∈ w.check.cache ↔ ∃ i, max 1 (n - maxBlockLimit) ≤ i ∧ i ≤ n ∧ nonce ∈ w.chain.nonces i) ∧
    ∀ b block tx, w.chain.getBlockByNumber b = some block → tx ∈ block →
      TransactionNonceCheck.isBlockLimitOk { w.check with blockNumber := b - 1 } tx = true →
      ¬(w.check.isNonceOk tx = true ∧ w.check.isBlockLimitOk tx = true) := by
  intro w n
  have hbefore := invariant_run (Exact maxBlockLimit) Exact.step (Exact.start hchain) hops
  have hrun : w = (run step (start maxBlockLimit chain) ops).step (.updateCache rebuild) :=
    run_append ..
  have hexact : w.Exact maxBlockLimit := hrun ▸ hbefore.updateCache rebuild
  have hend : w.check.endblk = n := by
    have hsame := (exact_updateCache hbefore.exact.cached rebuild fun _ => ⟨hbefore.exact, by
      rw [hbefore.maxBlockLimit]
      exact hbefore.spread⟩).2
    change w.check.endblk = w.chain.number
    rw [hrun]
    exact hsame.endblk
  refine ⟨fun nonce => ?_, fun b block tx hblock htx hlimit =>
    not_ok_of_block hexact.exact hend hblock htx hlimit⟩
  rw [hexact.exact.mem_cache, hexact.exact.startblk, hexact.maxBlockLimit, hend]

lemma fresh_append_iff :
    w.Fresh limit (.append block) ↔ ∀ a ∈ range (w.chain.number + 1), w.chain.number + 1 ≤ a + limit →
      ∀ nonce ∈ w.chain.nonces a, nonce ∉ getAllNonces block := by
  constructor
  · intro h a _ ha nonce hnonce
    exact h a nonce ha hnonce
  · intro h a nonce ha hnonce
    by_cases hle : a ≤ w.chain.number
    · exact h a (mem_range.mpr (by omega)) ha nonce hnonce
    · rw [nonces_of_lt (Nat.lt_of_not_le hle)] at hnonce
      cases hnonce

instance (limit : Nat) (w : NonceWorld) (op : NonceOp) : Decidable (w.Fresh limit op) :=
  match op with
  | .append _ => decidable_of_iff _ fresh_append_iff.symm
  | .updateCache _ => isTrue trivial

def oneBlock (nonce blockLimit : Nat) : List NonceOp :=
  [.append [{ hash := nonce, nonce := nonce, blockLimit := blockLimit }], .updateCache false]

theorem window_exact_sample :
    let ops := oneBlock 1 3 ++ oneBlock 2 4 ++ oneBlock 3 5 ++ oneBlock 4 6 ++ oneBlock 1 7
    let w := run step (start 3 []) (ops ++ [.updateCache true])
    w.check.cache = {1, 2, 3, 4} ∧ ∀ nonce, nonce ∈ w.check.cache ↔
      ∃ i, max 1 (5 - 3) ≤ i ∧ i ≤ 5 ∧ nonce ∈ w.chain.nonces i :=
  ⟨by decide +kernel, (window_exact 3 [] (spread_nil 3) _ (by decide +kernel) true).1⟩

/-- The nonce 1 is in blocks 1 and 4. When block 1 leaves the window at height 7, the nonce is erased, and the
transaction of block 4 passes both checks again. -/
theorem not_window_exact :
    let ops := oneBlock 1 5 ++ oneBlock 2 6 ++ oneBlock 3 7 ++ oneBlock 1 8 ++ oneBlock 5 9 ++ oneBlock 6 10 ++
      oneBlock 7 11
    let w := run step (start 5 []) ops
    let tx : Transaction := { hash := 1, nonce := 1, blockLimit := 8 }
    w.chain.number = 7 ∧ w.check.cache = {2, 3, 5, 6, 7} ∧ w.chain.getBlockByNumber 4 = some [tx] ∧
      TransactionNonceCheck.isBlockLimitOk { w.check with blockNumber := 3 } tx = true ∧
      w.check.isNonceOk tx = true ∧ w.check.isBlockLimitOk tx = true := by
  decide +kernel

end NonceWorld

end FiscoBcos
