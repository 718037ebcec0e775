import FiscoBcos.Chain.Block

/-!
# The block chain of one node

`BlockChainImp` as the engine sees it: a sequence of blocks that starts with the genesis block and in
which every block is numbered by its position.
-/

namespace FiscoBcos

open List

variable (E : Env)

structure BlockChain where
  /-- the genesis block first -/
  blocks : List Block
  nonempty : blocks ≠ []
  numbered : ∀ (i : Nat) (b : Block), blocks[i]? = some b → b.header.number = (i : Int)

inductive CommitResult where
  | OK
  | ERROR_NUMBER
  | ERROR_PARENT_HASH
deriving DecidableEq

namespace BlockChain

section

variable (c : BlockChain)

def number : Int :=
  (c.blocks.length : Int) - 1

def getBlockByNumber (i : Int) : Option Block :=
  if i < 0 then none else c.blocks[i.toNat]?

def numberHash (i : Int) : Hash :=
  match c.getBlockByNumber i with
  | some b => b.hash E
  | none => 0

def getBlockByHash (h : Hash) : Option Block :=
  c.blocks.find? fun b => b.hash E == h

def head : Block :=
  c.blocks.getLast c.nonempty

def headInfo : BlockInfo :=
  c.head.info E

end

section

variable (c : BlockChain)

lemma number_nonneg : 0 ≤ c.number := by
  have := length_pos_iff.mpr c.nonempty
  unfold number
  omega

lemma getElem?_number : c.blocks[c.number.toNat]? = some c.head := by
  have hlen := length_pos_iff.mpr c.nonempty
  have hidx : c.number.toNat = c.blocks.length - 1 := by unfold number; omega
  rw [hidx, head, getLast_eq_getElem]
  exact getElem?_eq_getElem (by omega)

lemma getBlockByNumber_number : c.getBlockByNumber c.number = some c.head := by
  unfold getBlockByNumber
  rw [if_neg (by have := c.number_nonneg; omega)]
  exact c.getElem?_number

lemma head_number : c.head.header.number = c.number := by
  have h := c.numbered _ _ c.getElem?_number
  have := c.number_nonneg
  omega

end

variable {c : BlockChain} {i : Int} {b : Block}

lemma number_of_getBlockByNumber (h : c.getBlockByNumber i = some b) : b.header.number = i ∧ i ≤ c.number := by
  unfold getBlockByNumber at h
  split at h
  · cases h
  have hnum := c.numbered _ _ h
  have hlt := (List.getElem?_eq_some_iff.mp h).1
  unfold number
  omega

lemma nonneg_of_getBlockByNumber (h : c.getBlockByNumber i = some b) : 0 ≤ i := by
  unfold getBlockByNumber at h
  split at h
  · cases h
  · omega

lemma append_nonempty : c.blocks ++ [b] ≠ [] := by
  simp

lemma append_numbered (h : b.header.number = c.number + 1) :
    ∀ (i : Nat) (b' : Block), (c.blocks ++ [b])[i]? = some b' → b'.header.number = (i : Int) := by
  intro i b' hb
  rcases Nat.lt_trichotomy i c.blocks.length with hi | rfl | hi
  · rw [getElem?_append_left hi] at hb
    exact c.numbered i b' hb
  · rw [getElem?_append_right le_rfl] at hb
    simp only [Nat.sub_self, getElem?_cons_zero, Option.some.injEq] at hb
    subst hb
    rw [h]
    unfold number
    omega
  · rw [getElem?_eq_none (by simp; omega)] at hb
    cases hb

def append (c : BlockChain) (b : Block) (h : b.header.number = c.number + 1) : BlockChain where
  blocks := c.blocks ++ [b]
  nonempty := append_nonempty
  numbered := append_numbered h

def commitBlock (c : BlockChain) (b : Block) : CommitResult × BlockChain :=
  if h : b.header.number = c.number + 1 then
    if b.header.parentHash = c.numberHash E c.number then (.OK, c.append b h)
    else (.ERROR_PARENT_HASH, c)
  else (.ERROR_NUMBER, c)

section

variable (c : BlockChain) (b : Block)

@[simp]
lemma append_number (h : b.header.number = c.number + 1) : (c.append b h).number = c.number + 1 := by
  unfold number append
  simp

lemma commitBlock_blocks : (c.commitBlock E b).2 = c ∨ b.header.parentHash = c.head.hash E ∧
        ∃ h : b.header.number = c.number + 1, (c.commitBlock E b).2 = c.append b h := by
  unfold commitBlock
  by_cases hn : b.header.number = c.number + 1
  · rw [dif_pos hn]
    by_cases hp : b.header.parentHash = c.numberHash E c.number
    · rw [if_pos hp]
      refine .inr ⟨?_, hn, rfl⟩
      rw [hp, numberHash, c.getBlockByNumber_number]
    · rw [if_neg hp]
      exact .inl rfl
  · rw [dif_neg hn]
    exact .inl rfl

lemma number_le_commitBlock : c.number ≤ (c.commitBlock E b).2.number := by
  rcases commitBlock_blocks E c b with h | ⟨_, hn, h⟩ <;> rw [h]
  rw [append_number]
  omega

end

lemma getBlockByNumber_commitBlock {E : Env} {x : Block}
    (h : c.getBlockByNumber i = some x) : (c.commitBlock E b).2.getBlockByNumber i = some x := by
  rcases commitBlock_blocks E c b with heq | ⟨_, hn, heq⟩
  · rw [heq]
    exact h
  rw [heq]
  unfold getBlockByNumber at h ⊢
  split at h
  · cases h
  · rename_i hneg
    rw [if_neg hneg]
    exact List.getElem?_append_left (List.getElem?_eq_some_iff.mp h).1 ▸ h

end BlockChain

end FiscoBcos
