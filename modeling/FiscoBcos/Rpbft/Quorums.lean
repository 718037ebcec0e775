import FiscoBcos.Pbft.Basics
import FiscoBcos.Rpbft.ConsensusSet

/-!
# Quorums

Both engines count their nodes in an `IDXTYPE`.
-/

namespace FiscoBcos

open List Option

namespace RotatingPBFTEngine

variable {s t : RotatingPBFTEngine} {c : RotatingChain}

lemma f_resetConfig (h : s.resetConfig c = some t) :
    t.f = toIdx (min ((t.epochSize - 1).tdiv 3) ((t.sealersNum - 1).tdiv 3)) := by
  obtain ⟨s₁, -, h⟩ := bind_eq_some_iff.mp h
  obtain ⟨s₂, h₂, h⟩ := bind_eq_some_iff.mp h
  obtain ⟨l, changed, located, hfinish⟩ := finish_eq s₂
  cases hfinish.symm.trans (some.inj h)
  simp only [chooseConsensusNodes] at h₂
  split_ifs at h₂ <;> cases h₂ <;> rfl

end RotatingPBFTEngine

open RotatingPBFTEngine

/-- Two quorums share more nodes than may be faulty exactly as long as the size of a quorum fits an `IDXTYPE`. The
rotating engine computes `m_f` from the number of nodes itself, the base engine from what an `IDXTYPE` keeps of it. -/
theorem quorums_intersect_iff (s : PBFTEngine) (amb : Ambient) (r t : RotatingPBFTEngine) (c : RotatingChain)
    (nodes : Finset NodeID) : (amb.sealerList ≠ [] → amb.sealerList.Nodup →
      let t := s.resetConfig amb
      (∀ A ⊆ t.sealerList.toFinset, ∀ B ⊆ t.sealerList.toFinset, A.card = t.minValidNodes → B.card = t.minValidNodes →
        t.f + 1 ≤ (A ∩ B).card) ↔ amb.sealerList.length ≤ 65535) ∧
    (r.resetConfig c = some t → nodes.card = min t.epochSize t.sealersNum → 1 ≤ nodes.card →
      ((∀ A ⊆ nodes, ∀ B ⊆ nodes, A.card = t.minValidNodes → B.card = t.minValidNodes → t.f + 1 ≤ (A ∩ B).card) ↔
        nodes.card ≤ 98302)) := by
  constructor
  · intro hne hnodup t
    have hpos := length_pos_iff.mpr hne
    obtain ⟨_, -, hconf⟩ := PBFTEngine.resetConfig_cases amb s
    obtain ⟨hlist, hnum, hf, -⟩ : PBFTEngine.Configured _ _ t := hconf hne
    have hcard : t.sealerList.toFinset.card = amb.sealerList.length := by
      rw [hlist, toFinset_card_of_nodup ((perm_insertionSort _ _).nodup_iff.mpr hnodup), length_insertionSort]
    have hmin : t.minValidNodes = t.nodeNum - t.f := rfl
    rw [length_insertionSort] at hnum
    unfold MAXIDX at hnum
    refine (Quorum.forall_lt_card_inter_iff (by omega)).trans ?_
    omega
  · intro hreset hcard hpos
    have hf := f_resetConfig hreset
    rw [Int.tdiv_eq_ediv_of_nonneg (by omega), Int.tdiv_eq_ediv_of_nonneg (by omega)] at hf
    have hmin : t.minValidNodes = toIdx (min t.epochSize t.sealersNum - t.f) := rfl
    unfold toIdx at hf hmin
    rcases le_or_gt t.minValidNodes nodes.card with hle | hlt
    · refine (Quorum.forall_lt_card_inter_iff hle).trans ?_
      omega
    · omega

def freshNode : PBFTEngine where
  keyPair := 1
  blockChain := Symbolic.chain

def fourSealers : RotatingChain :=
  rotatingChain 0 3 4 (by decide)

theorem quorums_intersect_of_four :
    (let t := freshNode.resetConfig { sealerList := [4, 2, 1, 3] }
      ∀ A ⊆ t.sealerList.toFinset, ∀ B ⊆ t.sealerList.toFinset, A.card = t.minValidNodes → B.card = t.minValidNodes →
        t.f + 1 ≤ (A ∩ B).card) ∧
      ∃ t, (construct 1 [] fourSealers).resetConfig fourSealers = some t ∧ t.minValidNodes = 3 ∧
        ∀ A ⊆ ({1, 2, 3, 4} : Finset NodeID), ∀ B ⊆ ({1, 2, 3, 4} : Finset NodeID), A.card = t.minValidNodes →
          B.card = t.minValidNodes → t.f + 1 ≤ (A ∩ B).card := by
  have hread : ((construct 1 [] fourSealers).resetConfig fourSealers).map (fun t =>
      (min t.epochSize t.sealersNum, t.minValidNodes)) = some (4, 3) := by
    decide +kernel
  obtain ⟨t, ht, hsizes⟩ := map_eq_some_iff.mp hread
  obtain ⟨hcard, hmin⟩ := Prod.mk.inj hsizes
  obtain ⟨hbase, hrotating⟩ := quorums_intersect_iff freshNode { sealerList := [4, 2, 1, 3] } _ t _ {1, 2, 3, 4}
  exact ⟨(hbase (by decide) (by decide)).mpr (by decide), t, ht, hmin,
    (hrotating ht (by rw [hcard]; rfl) (by decide)).mpr (by decide)⟩

lemma quorum_of_one {n : Nat} (hn : 2 ≤ n) (hmod : n % (MAXIDX + 1) = 1) :
    let t := freshNode.resetConfig { sealerList := range n }
    {0} ⊆ t.sealerList.toFinset ∧ {1} ⊆ t.sealerList.toFinset ∧ t.minValidNodes = 1 ∧
      (({0} : Finset NodeID) ∩ {1}).card < t.f + 1 := by
  obtain ⟨_, -, hconf⟩ := freshNode.resetConfig_cases { sealerList := range n }
  obtain ⟨hlist, hnum, hf, -⟩ := hconf (by simp; omega)
  simp [hlist, hnum, hf, PBFTEngine.minValidNodes, hmod]
  omega

/-- Of 65537 sealers `m_nodeNum` counts one, which is then a quorum. -/
theorem not_quorums_intersect : let t := freshNode.resetConfig { sealerList := range 65537 }
    {0} ⊆ t.sealerList.toFinset ∧ {1} ⊆ t.sealerList.toFinset ∧ t.minValidNodes = 1 ∧
      (({0} : Finset NodeID) ∩ {1}).card < t.f + 1 :=
  quorum_of_one (by decide) (by decide)

end FiscoBcos
