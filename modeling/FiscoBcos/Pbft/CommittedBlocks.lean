import FiscoBcos.Pbft.SyncedBlocks

/-!
# From the blocks a node takes in to the blocks of its chain

A relation between a block and the blocks below it that holds of every proposal and every block of block sync when the
node takes it up, holds all along the chain, if it does not depend on what execution adds to a block.
-/

namespace FiscoBcos

namespace PBFTEngine

def Stacked (P : List Block → Block → Prop) (n : Nat) (c : BlockChain) : Prop :=
  ∀ (i : Nat) (b : Block), n ≤ i → c.blocks[i]? = some b → P (c.blocks.take i) b

/-- `P` holds of what the node takes in and its chain. -/
structure TakesIn (E : Env) (P : List Block → Block → Prop) (s : PBFTEngine) (e : Event × Ambient) : Prop where
  proposals : ∀ r b, Takes E s e r → proposedBlock E r = some b → P s.blockChain.blocks b
  synced : ∀ b, e.1 = .syncBlock b → P s.blockChain.blocks b

def OfProposal (P : List Block → Block → Prop) : Prop :=
  ∀ bs b b', b'.header.withoutRoots = b.header.withoutRoots → b'.transactions = b.transactions → P bs b → P bs b'

/-- The block is not ahead of the chain, and if it is next it may follow. -/
def Awaited (P : List Block → Block → Prop) (c : BlockChain) (b : Block) : Prop :=
  b.header.number ≤ c.number + 1 ∧ (b.header.number = c.number + 1 → P c.blocks b)

variable {E : Env} {amb : Ambient} {s₀ a b : PBFTEngine} {e : Event} {P : List Block → Block → Prop} {n : Nat}

lemma Awaited.congr (hP : OfProposal P) {c : BlockChain} {bl bl' : Block}
    (hheader : bl'.header.withoutRoots = bl.header.withoutRoots) (htxs : bl'.transactions = bl.transactions)
    (h : Awaited P c bl) : Awaited P c bl' := by
  have hnumber : bl'.header.withoutRoots.number = bl.header.withoutRoots.number := by rw [hheader]
  exact ⟨hnumber ▸ h.1, fun hnext => hP _ _ _ hheader htxs (h.2 (hnumber ▸ hnext))⟩

section

variable {c c' : BlockChain} {bl : Block}

lemma chain_eq_of_blocks_eq (h : c.blocks = c'.blocks) : c = c' := by
  cases c
  cases c'
  cases h
  rfl

lemma blocks_eq_of_number_le (hgrown : c.blocks <+: c'.blocks) (h : c'.number ≤ c.number) : c'.blocks = c.blocks := by
  apply (hgrown.eq_of_length_le ?_).symm
  unfold BlockChain.number at h
  omega

lemma Stacked.commitBlock (hc : Stacked P n c) (hbl : bl.header.number = c.number + 1 → P c.blocks bl) :
    Stacked P n (c.commitBlock E bl).2 ∧ c.blocks <+: (c.commitBlock E bl).2.blocks := by
  rcases c.commitBlock_blocks E bl with heq | ⟨-, hnumber, heq⟩
  · rw [heq]
    exact ⟨hc, List.prefix_refl _⟩
  rw [heq]
  refine ⟨?_, List.prefix_append _ _⟩
  intro i x hi hx
  change (c.blocks ++ [bl])[i]? = some x at hx
  change P ((c.blocks ++ [bl]).take i) x
  have hlt := (List.getElem?_eq_some_iff.mp hx).1
  rw [List.length_append, List.length_singleton] at hlt
  rw [List.take_append_of_le_length (by omega)]
  by_cases hold : i < c.blocks.length
  · rw [List.getElem?_append_left hold] at hx
    exact hc i x hi hx
  have hlast : i = c.blocks.length := by omega
  rw [hlast, List.getElem?_concat_length] at hx
  rw [hlast, List.take_length, ← Option.some.inj hx]
  exact hbl hnumber

end

section

variable (E : Env) (P : List Block → Block → Prop) (n : Nat)

structure Building (c : BlockChain) (s : PBFTEngine) : Prop where
  heights : Heights s
  prepared : Prepared E s
  block : PreparedBlock (Awaited P c) s
  grown : c.blocks <+: s.blockChain.blocks
  stacked : Stacked P n s.blockChain

def Built (s : PBFTEngine) : Prop :=
  Building E P n s.blockChain s

end

lemma built_start (E : Env) (amb : Ambient) (cfg : NodeConfig) (backup : Option WireMsg)
    (h : Stacked P n cfg.blockChain) : Built E P n (start E amb cfg backup) := by
  have hfresh := fresh_start E amb cfg backup
  refine ⟨heights_start E amb cfg backup, hfresh.prepared, fun hset => absurd hfresh.proposal hset,
    List.prefix_refl _, ?_⟩
  rw [(start_blockChain E amb cfg backup).1]
  exact h

lemma stacked_length (P : List Block → Block → Prop) (c : BlockChain) : Stacked P c.blocks.length c := by
  intro i bl hi hbl
  have hlt := (List.getElem?_eq_some_iff.mp hbl).1
  omega

variable (hzero : ∀ h, E.headerHash h ≠ 0) (hP : OfProposal P)

include hzero hP

lemma Execution.awaited {req : PrepareReq} {bl result : Block} {context : Bool}
    (h : Execution E amb s₀ req bl result context) (hbl : P s₀.blockChain.blocks bl) : Awaited P s₀.blockChain result := by
  obtain ⟨header, hresult, hroots⟩ := executeBlock_block
  rw [h.result] at hresult
  dsimp only at hresult
  have hnumber := h.number hzero
  have hbl' : Awaited P s₀.blockChain bl := ⟨by omega, fun _ => hbl⟩
  rw [hresult]
  exact hbl'.congr hP hroots rfl

lemma building_smallStep (h : SmallStep E amb s₀ e a b) (hin : TakesIn E P s₀ (e, amb))
    (ha : Building E P n s₀.blockChain a) : Building E P n s₀.blockChain b := by
  have hchain : Stacked P n b.blockChain ∧ a.blockChain.blocks <+: b.blockChain.blocks := by
    have hmove := h.chainMove
    generalize b.blockChain = c at hmove
    cases hmove with
    | stay => exact ⟨ha.stacked, List.prefix_refl _⟩
    | save bl bl' hheight hblock hheader htxs =>
      have hset := ha.prepared.proposal_ne_none_of_lt ha.heights hheight
      apply ha.stacked.commitBlock
      intro hnext
      have hawaited : Awaited P s₀.blockChain bl' :=
        (ha.block hset bl hblock).congr hP (congrArg BlockHeader.withoutRoots hheader) htxs
      have hle := hawaited.1
      -- the chain has not grown since the event came
      rw [blocks_eq_of_number_le ha.grown (by omega)]
      apply hawaited.2
      have hsame := blocks_eq_of_number_le ha.grown (by omega)
      unfold BlockChain.number at hnext ⊢
      rw [← hsame]
      exact hnext
    | sync bl hs he =>
      apply ha.stacked.commitBlock
      intro _
      rw [hs]
      exact hin.synced bl he
  refine ⟨heights_smallStep h ha.heights, prepared_smallStep h ha.prepared, ?_, ha.grown.trans hchain.2, hchain.1⟩
  apply h.preparedBlock ?_ ?_ ha.block
  · intro bl bl' hheader htxs hbl
    exact hbl.congr hP (congrArg BlockHeader.withoutRoots hheader) htxs
  · intro req bl result context htakes hexec
    exact hexec.awaited hzero hP (hin.proposals req bl htakes hexec.proposed)

lemma built_step (s : PBFTEngine) (e : Event × Ambient) (hin : TakesIn E P s e) (hs : Built E P n s) :
    Built E P n (step E s e) := by
  have hbuilding : Building E P n s.blockChain (step E s e) :=
    invariant_step (Building E P n s.blockChain) (fun a b h => building_smallStep hzero hP h hin) hs
  refine ⟨hbuilding.heights, hbuilding.prepared, ?_, List.prefix_refl _, hbuilding.stacked⟩
  intro hset bl hbl
  have hawaited := hbuilding.block hset bl hbl
  by_cases hsame : (step E s e).blockChain.number ≤ s.blockChain.number
  · have hchain := chain_eq_of_blocks_eq (blocks_eq_of_number_le hbuilding.grown hsame)
    rw [hchain]
    exact hawaited
  · -- a block that was awaited before the chain grew is not next any more
    have hle := hawaited.1
    exact ⟨by omega, fun hnext => absurd hnext (by omega)⟩

lemma stacked_run {cfg : NodeConfig} {backup : Option WireMsg} {es : List (Event × Ambient)}
    (hstart : Stacked P n cfg.blockChain) (hes : Machine.Along (step E) (TakesIn E P) (start E amb cfg backup) es) :
    Stacked P n (Machine.run (step E) (start E amb cfg backup) es).blockChain :=
  (Machine.invariant_run (Built E P n) (built_step hzero hP) (built_start E amb cfg backup hstart) hes).stacked

end PBFTEngine

end FiscoBcos
