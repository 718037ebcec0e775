import FiscoBcos.Lib.FixedWidth
import FiscoBcos.Lib.Run
import FiscoBcos.Chain.Block

/-!
# The clock offset of a node

`libsync/NodeTimeMaintenance.cpp`. Sums and differences of `int64_t` int64 around.
-/

namespace FiscoBcos

open List Machine

open FixedWidth (int64 int64_of_lt)

structure NodeTimeMaintenance where
  node2TimeOffset : Std.ExtTreeMap NodeID Int := ∅
  medianTimeOffset : Int := 0

structure SyncStatus where
  nodeId : NodeID
  alignedTime : Int
  localTime : Int

namespace NodeTimeMaintenance

def minTimeOffset : Int :=
  3 * 60 * 1000

variable (m : NodeTimeMaintenance)

def offsets : List Int :=
  m.node2TimeOffset.toList.map Prod.snd

def median (offsets : List Int) : Int :=
  let timeOffsetVec := offsets.insertionSort (· ≤ ·)
  let medianIndex := timeOffsetVec.length / 2
  if timeOffsetVec.length % 2 = 0 then
    (int64 (timeOffsetVec.getD medianIndex 0 + timeOffsetVec.getD (medianIndex - 1) 0)).tdiv 2
  else timeOffsetVec.getD medianIndex 0

def updateTimeInfo : NodeTimeMaintenance :=
  { m with medianTimeOffset := median m.offsets }

def tryToUpdatePeerTimeInfo (peerStatus : SyncStatus) : NodeTimeMaintenance :=
  let peerTimeOffset := int64 (peerStatus.alignedTime - peerStatus.localTime)
  let update := updateTimeInfo
    { m with node2TimeOffset := m.node2TimeOffset.insert peerStatus.nodeId peerTimeOffset }
  match m.node2TimeOffset[peerStatus.nodeId]? with
  | some orgTimeOffset =>
    if int64 (int64 (orgTimeOffset - peerTimeOffset)).natAbs ≤ minTimeOffset then m else update
  | none => update

def inside (a b x : Int) : Bool :=
  a ≤ x ∧ x ≤ b

variable {a b : Int} {l : List Int} {i : Nat} {m}

lemma inside_getD (hl : l.Pairwise (· ≤ ·)) (hi : i < l.countP (inside a b))
    (hlength : l.length ≤ l.countP (inside a b) + i) : inside a b (l.getD i 0) := by
  have hlt : i < l.length := hi.trans_le countP_le_length
  have hsplit : l = l.take i ++ l.getD i 0 :: l.drop (i + 1) := by simp [hlt]
  have htake : (l.take i).length = i := by simp [hlt.le]
  generalize l.take i = l₁, l.getD i 0 = x, l.drop (i + 1) = l₂ at hsplit htake ⊢
  subst hsplit htake
  simp only [pairwise_append, pairwise_cons, mem_cons, forall_eq_or_imp] at hl
  by_contra hx
  have hle₁ := countP_le_length (p := inside a b) (l := l₁)
  have hle₂ := countP_le_length (p := inside a b) (l := l₂)
  -- the entries on one side of an entry outside the interval are outside it too
  have hnone : l₁.countP (inside a b) = 0 ∨ l₂.countP (inside a b) = 0 := by
    simp only [countP_eq_zero]
    by_cases h : x < a
    · exact .inl (by grind [inside])
    · exact .inr (by grind [inside])
  grind

lemma median_mem (hlow : -2 ^ 62 ≤ a) (hhigh : b < 2 ^ 62) (h : l.length < 2 * l.countP (inside a b)) :
    inside a b (median l) := by
  have hperm := l.perm_insertionSort (· ≤ ·)
  rw [← hperm.length_eq, ← hperm.countP_eq] at h
  have hget {i : Nat} := inside_getD (a := a) (b := b) (i := i) (l.pairwise_insertionSort (· ≤ ·))
  unfold median
  generalize l.insertionSort (· ≤ ·) = v at *
  have hmid := @hget (v.length / 2) (by omega) (by omega)
  by_cases heven : v.length % 2 = 0
  · have hmid' := @hget (v.length / 2 - 1) (by omega) (by omega)
    simp only [heven, inside, decide_eq_true_eq, if_true] at *
    rw [int64_of_lt (by omega) (by omega), Int.tdiv_eq_ediv, show Int.sign 2 = 1 from rfl]
    split <;> omega
  · simpa [heven] using hmid

lemma nil_or_median (ps : List SyncStatus) : (run tryToUpdatePeerTimeInfo {} ps).offsets = [] ∨
    (run tryToUpdatePeerTimeInfo {} ps).medianTimeOffset = median (run tryToUpdatePeerTimeInfo {} ps).offsets := by
  apply run_induction fun m : NodeTimeMaintenance => m.offsets = [] ∨ m.medianTimeOffset = median m.offsets
  · intro m p hm
    simp only [tryToUpdatePeerTimeInfo]
    split
    · split
      · exact hm
      · exact .inr rfl
    · exact .inr rfl
  · exact .inl (by simp [offsets])

theorem median_of_majority (ps : List SyncStatus) (hlow : -2 ^ 62 ≤ a) (hhigh : b < 2 ^ 62)
    (h : (run tryToUpdatePeerTimeInfo {} ps).offsets.length <
      2 * (run tryToUpdatePeerTimeInfo {} ps).offsets.countP (inside a b)) :
    inside a b (run tryToUpdatePeerTimeInfo {} ps).medianTimeOffset := by
  rcases nil_or_median ps with hnil | hmedian
  · simp [hnil] at h
  · rw [hmedian]
    exact median_mem hlow hhigh h

def ahead (id : NodeID) : SyncStatus :=
  ⟨id, 2 ^ 62, 0⟩

theorem median_of_majority_sample :
    inside 5 7 (run tryToUpdatePeerTimeInfo {} [⟨0, 16, 10⟩, ahead 1, ⟨2, 5, 0⟩]).medianTimeOffset :=
  median_of_majority _ (by decide) (by decide) (by decide +kernel)

theorem not_median_of_majority :
    (run tryToUpdatePeerTimeInfo {} [ahead 0, ahead 1]).offsets.countP (inside (2 ^ 62) (2 ^ 62)) = 2 ∧
      (run tryToUpdatePeerTimeInfo {} [ahead 0, ahead 1]).offsets.length = 2 ∧
      (run tryToUpdatePeerTimeInfo {} [ahead 0, ahead 1]).medianTimeOffset = -2 ^ 62 := by
  decide +kernel

end NodeTimeMaintenance

end FiscoBcos
