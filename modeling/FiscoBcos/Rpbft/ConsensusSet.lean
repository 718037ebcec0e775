import Mathlib.Tactic.Linarith
import FiscoBcos.Lib.Run
import FiscoBcos.Lib.Window
import FiscoBcos.Rpbft.RotatingEngine

/-!
# Agreement on the consensus nodes

The consensus nodes are a window of the sealer list after every call that meets `WindowSafe`. After one that meets
`RotationSafe` the epoch size, the round and the window are functions of what the engine last read of its chain.
-/

namespace FiscoBcos

open Machine Option List

variable {changed : Bool} {s' : RotatingPBFTEngine} {l : List NodeID} {s : RotatingPBFTEngine} {c : RotatingChain}

def RotatingChain.round (c : RotatingChain) : Int :=
  (c.number - c.epochBlockEnable).tdiv c.epochBlockNum

namespace RotatingPBFTEngine

/-- The interval is in force or longer than one block, and `IDXTYPE` can index the sealers. -/
structure WindowSafe (c : RotatingChain) : Prop where
  enabled : c.epochBlockEnable ≤ c.number ∨ 1 < c.epochBlockNum
  size : c.sealers.length ≤ 2 ^ 16

/-- A call with the chain `c` keeps an engine in step: the chain has not got shorter, its interval is in force or longer
than one block, the configured epoch size fits if it is the one the engine holds, at most one rotation is due, and
`IDXTYPE` can index the sealers. -/
structure RotationSafe (s : RotatingPBFTEngine) (c : RotatingChain) : Prop where
  grows : s.chain.number ≤ c.number
  enabled : c.epochBlockEnable ≤ c.number ∨ 1 < c.epochBlockNum
  epoch : c.epochSealerNum = s.epochSize → c.epochSealerNum ≤ c.sealers.length
  rotation : c.epochBlockNum = s.rotatingInterval → c.epochBlockEnable = s.rotatingIntervalEnableNumber →
    c.number - c.epochBlockEnable - s.rotatingRound * c.epochBlockNum < 2 * c.epochBlockNum
  size : c.sealers.length ≤ 2 ^ 16

section

variable {d i q : Int}

lemma tdiv_spec (hi : 0 < i) (hd : 0 ≤ d ∨ (d = -1 ∧ 1 < i)) :
    0 ≤ d.tdiv i ∧ d - d.tdiv i * i < i ∧ (d.tdiv i = 0 ∨ d.tdiv i * i ≤ d) := by
  rcases hd with hd | ⟨rfl, hi'⟩
  · rw [Int.tdiv_eq_ediv_of_nonneg hd]
    have hmod := Int.emod_lt_of_pos d hi
    have hnonneg := Int.emod_nonneg d hi.ne'
    have hsum := Int.mul_ediv_add_emod d i
    rw [Int.mul_comm] at hsum
    exact ⟨Int.ediv_nonneg hd hi.le, by omega, .inr (by omega)⟩
  · have hzero : (-1 : Int).tdiv i = 0 := by
      rw [Int.neg_tdiv, Int.tdiv_eq_zero_of_lt (by decide) hi']
      rfl
    rw [hzero]
    exact ⟨le_rfl, by omega, .inl rfl⟩

lemma tdiv_unique (hi : 0 < i) (hd : 0 ≤ d ∨ (d = -1 ∧ 1 < i)) (hq : 0 ≤ q) (hlt : d - q * i < i)
    (hle : q = 0 ∨ q * i ≤ d) : q = d.tdiv i := by
  obtain ⟨hnonneg, hupper, hlower⟩ := tdiv_spec hi hd
  have hmul : ∀ {a b : Int}, a + 1 ≤ b → a * i + i ≤ b * i := by
    intro a b hab
    nlinarith
  rcases lt_trichotomy q (d.tdiv i) with hless | heq | hmore
  · have := hmul (Int.add_one_le_of_lt hless)
    rcases hlower with h0 | h0 <;> omega
  · exact heq
  · have := hmul (Int.add_one_le_of_lt hmore)
    rcases hle with h0 | h0 <;> omega

end

section

open Window

lemma length_sorted (l : List NodeID) : (sorted l).length = l.length :=
  length_insertionSort _ l

lemma nodup_sorted (hl : l.Nodup) : (sorted l).Nodup :=
  (perm_insertionSort _ l).nodup_iff.mpr hl

lemma collectNodes_eq (hl : 0 < l.length) (k r : ℕ) (nodes : Finset NodeID) :
    collectNodes l l.length k (r % l.length : ℕ) nodes = some (nodes ∪ window (cyclic l 0) r k) := by
  induction k generalizing r nodes with
  | zero => simp [collectNodes, window_zero]
  | succ k ih =>
    have hlt : r % l.length < l.length := Nat.mod_lt r hl
    have hnode : l[r % l.length]? = some (cyclic l 0 r) := by
      rw [cyclic, getD_eq_getElem _ _ hlt, getElem?_eq_getElem hlt]
    have hnext : (((r % l.length : ℕ) : Int) + 1).tmod l.length = ((r + 1) % l.length : ℕ) := by
      exact Int.emod_add_emod (r : Int) l.length 1
    unfold collectNodes
    rw [if_neg (by omega), Int.toNat_natCast, hnode, bind_some, hnext, ih, window_succ,
      Finset.insert_union, Finset.union_insert]

/-- The engine with the epoch size `e` and the consensus nodes of round `r`. -/
def place (e : Int) (r : ℕ) (changed : Bool) (s : RotatingPBFTEngine) : RotatingPBFTEngine :=
  { s with
    sealersNum := s.sealerList.length
    epochSize := e
    rotatingRound := r
    startNodeIdx := (r % s.sealerList.length : ℕ)
    chosedConsensusNodes := window (cyclic s.sealerList 0) r e.toNat
    chosedConsNodeChanged := changed }

def tolerate (e : Int) (s : RotatingPBFTEngine) : RotatingPBFTEngine :=
  { s with f := toIdx (min ((e - 1).tdiv 3) (((s.sealerList.length : Int) - 1).tdiv 3)) }

/-- The configured epoch size is clamped to the number of sealers unless it is the one the engine holds. -/
def Epoch (s : RotatingPBFTEngine) (e : Int) : Prop :=
  e = min s.chain.epochSealerNum s.sealerList.length ∨ s.chain.epochSealerNum = s.epochSize ∧ e = s.epochSize

lemma updateEpochSize_eq (hnum : s.sealersNum = s.sealerList.length) :
    ∃ e, s.updateEpochSize = ({ s with epochSize := e }, decide (s.epochSize ≠ e)) ∧ s.Epoch e := by
  have hclamp : (if s.chain.epochSealerNum > s.sealersNum then s.sealersNum else s.chain.epochSealerNum) =
      min s.chain.epochSealerNum s.sealersNum := by
    split <;> omega
  unfold updateEpochSize
  dsimp only
  split
  case isTrue h => exact ⟨s.epochSize, by simp, .inr ⟨h, rfl⟩⟩
  case isFalse =>
    exact ⟨min s.chain.epochSealerNum s.sealersNum, by simp only [setEpochSealerNum, hclamp], .inl (by rw [hnum])⟩

lemma firstSetUp_eq {r : Int} (hround : s.rotatingRound = r) (hfirst : s.startNodeIdx = -1 → s.currentRound = r) :
    s.firstSetUp = { s with rotatingRound := r } := by
  unfold firstSetUp
  split
  case isTrue h => rw [hfirst h]
  case isFalse => rw [← hround]

lemma tmod_natCast (m n : ℕ) : (m : Int).tmod n = (m % n : ℕ) := by
  rfl

variable {r : ℕ} {e : Int}

lemma Epoch.pos (h : s.Epoch e) (hlen : 0 < s.sealerList.length) : 0 < e := by
  have := s.chain.epochSealerNum_pos
  unfold Epoch at h
  omega

lemma rechooseNodes_eq (hlen : 0 < s.sealerList.length) (hnum : s.sealersNum = s.sealerList.length)
    (hround : s.rotatingRound = r) : ∃ changed, s.rechooseNodes = some (s.place s.epochSize r changed) := by
  unfold rechooseNodes
  dsimp only
  rw [hround, hnum, tmod_natCast, collectNodes_eq hlen, map_some, Finset.empty_union]
  split
  case isTrue => exact ⟨true, rfl⟩
  case isFalse h =>
    refine ⟨s.chosedConsNodeChanged, ?_⟩
    rw [place, not_not.mp h]

structure Placed (s : RotatingPBFTEngine) (r : ℕ) : Prop where
  sealersNum : s.sealersNum = s.sealerList.length
  rotatingRound : s.rotatingRound = r
  startNodeIdx : s.startNodeIdx = (r % s.sealerList.length : ℕ)
  chosedConsensusNodes : s.chosedConsensusNodes = window (cyclic s.sealerList 0) r s.epochSize.toNat

lemma resetChosedConsensusNodes_eq (hlen : 0 < s.sealerList.length) (hinterval : s.rotatingInterval ≠ -1)
    (hround : s.rotatingRound = r) (hfirst : s.startNodeIdx = -1 → s.currentRound = r)
    (hnum : s.sealerListUpdated = false → s.sealersNum = s.sealerList.length)
    (hplaced : s.sealerListUpdated = false → s.rotatingIntervalUpdated = false → s.Placed r) :
    ∃ e, s.Epoch e ∧ ∃ changed, s.resetChosedConsensusNodes = some (s.place e r changed) := by
  have hs : (if s.sealerListUpdated then { s with sealersNum := s.sealerList.length } else s) =
      { s with sealersNum := s.sealerList.length } := by
    split
    case isTrue => rfl
    case isFalse h => rw [← hnum (Bool.eq_false_iff.mpr h)]
  obtain ⟨e, hupdate, hepoch⟩ := updateEpochSize_eq (s := { s with sealersNum := s.sealerList.length }) rfl
  have hpos : 0 < e := hepoch.pos hlen
  refine ⟨e, hepoch, ?_⟩
  unfold resetChosedConsensusNodes
  dsimp only
  rw [hs, hupdate]
  dsimp only
  split
  case isTrue h =>
    obtain ⟨hsame, hlist, hint⟩ := h
    have hplaced := hplaced hlist hint
    obtain rfl : s.epochSize = e := by simpa using hsame
    refine ⟨s.chosedConsNodeChanged, ?_⟩
    simp only [place, ← hplaced.rotatingRound, ← hplaced.startNodeIdx, ← hplaced.chosedConsensusNodes]
  case isFalse =>
    rw [if_neg (by omega), if_neg (by omega), firstSetUp_eq (r := (r : Int))]
    · exact rechooseNodes_eq hlen rfl rfl
    · exact hround
    · exact hfirst

lemma toIdx_natCast {v : ℕ} (hv : v < 2 ^ 16) : toIdx v = v := by
  unfold toIdx
  omega

lemma getNodeIDByIndex_natCast (m : ℕ) :
    s.getNodeIDByIndex (m % s.sealerList.length : ℕ) = cyclic s.sealerList 0 m := by
  unfold getNodeIDByIndex
  rw [if_neg (by omega), Int.toNat_natCast, cyclic]

section

variable (he : 0 < e) (hnodup : s.sealerList.Nodup) (hlen : 0 < s.sealerList.length)
  (hsize : s.sealerList.length ≤ 2 ^ 16)

include he hnodup hlen hsize

lemma rotateNodes_place : (s.place e r changed).rotateNodes = s.place e (r + 1) true := by
  obtain ⟨k, hk⟩ : ∃ k : ℕ, min e s.sealerList.length = k :=
    ⟨_, (Int.toNat_of_nonneg (by omega)).symm⟩
  have hmin : min e.toNat s.sealerList.length = k := by
    omega
  have hin : (((r + 1) % s.sealerList.length : ℕ) : Int) + k - 1 = ((r + 1) % s.sealerList.length + (k - 1) : ℕ) := by
    omega
  have hlast : ((r + 1) % s.sealerList.length + (k - 1)) % s.sealerList.length = (r + k) % s.sealerList.length := by
    rw [Nat.mod_add_mod]
    congr 1
    omega
  have hidx : toIdx ((r + k) % s.sealerList.length : ℕ) = (r + k) % s.sealerList.length :=
    toIdx_natCast ((Nat.mod_lt _ hlen).trans_le hsize)
  have hslide : insert (cyclic s.sealerList 0 (r + k))
      ((window (cyclic s.sealerList 0) r k).erase (cyclic s.sealerList 0 r)) =
      window (cyclic s.sealerList 0) (r + 1) k :=
    slide _ (by omega) (injOn_cyclic hnodup 0 (by omega))
  have hout := (s.place e r changed).getNodeIDByIndex_natCast r
  have hchosed := (s.place e r changed).getNodeIDByIndex_natCast (r + k)
  have hsucc : (r : Int) + 1 = (r + 1 : ℕ) := by omega
  unfold rotateNodes
  simp only [place] at hout hchosed ⊢
  rw [hk, hsucc, tmod_natCast, tmod_natCast, hin, tmod_natCast, hlast, hidx, hout, hchosed,
    window_cyclic_min hlen r, window_cyclic_min hlen (r + 1), hmin, hslide]

lemma chooseConsensusNodes_place (hinterval : s.rotatingInterval ≠ -1) : (s.place e r changed).chooseConsensusNodes =
      if s.chain.number - s.rotatingIntervalEnableNumber - r * s.rotatingInterval < s.rotatingInterval
      then some (s.place e r changed) else some (s.place e (r + 1) true) := by
  have hset : ¬((s.place e r changed).rotatingInterval = -1 ∨ (s.place e r changed).epochSize = -1) := by
    simp only [place]
    omega
  have hnum : ¬(s.place e r changed).sealersNum = 0 := by
    simp only [place]
    omega
  unfold chooseConsensusNodes
  rw [if_neg hset, if_neg hnum, rotateNodes_place he hnodup hlen hsize]
  rfl

end

end

section

variable (s : RotatingPBFTEngine) (c : RotatingChain)

structure Refreshed (s' : RotatingPBFTEngine) : Prop where
  chain : s'.chain = c
  sealerList : s'.sealerList = sorted c.sealers
  rotatingInterval : s'.rotatingInterval = c.epochBlockNum
  rotatingIntervalEnableNumber : s'.rotatingIntervalEnableNumber = c.epochBlockEnable
  list_same : s'.sealerListUpdated = false → s.sealerList = sorted c.sealers
  list_updated : s.sealerListUpdated = true → s.lastSealerListUpdateNumber = c.number → s'.sealerListUpdated = true
  interval_updated : s'.rotatingIntervalUpdated = true → s'.rotatingRound = c.round
  interval_same : s'.rotatingIntervalUpdated = false → c.epochBlockNum = s.rotatingInterval ∧
    c.epochBlockEnable = s.rotatingIntervalEnableNumber ∧ s'.rotatingRound = s.rotatingRound
  epochSize : s'.epochSize = s.epochSize
  sealersNum : s'.sealersNum = s.sealersNum
  startNodeIdx : s'.startNodeIdx = s.startNodeIdx
  chosedConsensusNodes : s'.chosedConsensusNodes = s.chosedConsensusNodes
  highestBlock : s'.highestBlock = s.highestBlock

lemma updateConsensusNodeList_eq : ∃ updated number, s.updateConsensusNodeList = { s with
      sealerList := sorted s.chain.sealers, sealerListUpdated := updated, lastSealerListUpdateNumber := number } ∧
    (updated = false → s.sealerList = sorted s.chain.sealers) ∧
    (s.sealerListUpdated = true → s.lastSealerListUpdateNumber = s.chain.number → updated = true) := by
  unfold updateConsensusNodeList
  dsimp only
  split_ifs with hlist hnumber
  · exact ⟨true, s.chain.number, rfl, (nomatch ·), fun _ _ => rfl⟩
  · rw [not_not.mp hlist]
    exact ⟨false, s.lastSealerListUpdateNumber, rfl, fun _ => rfl, fun _ h => absurd h.symm hnumber⟩
  · rw [not_not.mp hlist]
    exact ⟨s.sealerListUpdated, s.lastSealerListUpdateNumber, rfl, fun _ => rfl, fun h _ => h⟩

lemma updateRotatingInterval_eq : ∃ updated, s.updateRotatingInterval = ({ s with
      rotatingInterval := s.chain.epochBlockNum, rotatingIntervalEnableNumber := s.chain.epochBlockEnable }, updated) ∧
    (updated = false → s.chain.epochBlockNum = s.rotatingInterval ∧
      s.chain.epochBlockEnable = s.rotatingIntervalEnableNumber) := by
  unfold updateRotatingInterval
  split
  case isTrue h =>
    rw [h.1, h.2]
    exact ⟨false, rfl, fun _ => ⟨rfl, rfl⟩⟩
  case isFalse => exact ⟨true, rfl, (nomatch ·)⟩

lemma refresh_refreshed : s.Refreshed c (s.refresh c) := by
  obtain ⟨updated, number, hlist, hlist_same, hlist_updated⟩ := updateConsensusNodeList_eq { s with chain := c }
  obtain ⟨interval, hinterval, hinterval_same⟩ := updateRotatingInterval_eq
    { s with chain := c, sealerList := sorted c.sealers, sealerListUpdated := updated
             lastSealerListUpdateNumber := number }
  unfold refresh
  rw [hlist]
  dsimp only at hinterval ⊢
  rw [hinterval]
  cases interval with
  | true =>
    exact ⟨rfl, rfl, rfl, rfl, hlist_same, hlist_updated, fun _ => rfl, (nomatch ·), rfl, rfl, rfl, rfl, rfl⟩
  | false =>
    exact ⟨rfl, rfl, rfl, rfl, hlist_same, hlist_updated, (nomatch ·),
      fun h => ⟨(hinterval_same h).1, (hinterval_same h).2, rfl⟩, rfl, rfl, rfl, rfl, rfl⟩

lemma Refreshed.size {s c} (h : Refreshed s c s') (hsize : c.sealers.length ≤ 2 ^ 16) :
    s'.sealerList.length ≤ 2 ^ 16 := by
  rwa [h.sealerList, length_sorted]

end

section

/-- The consensus nodes are those of the engine's round. -/
structure Windowed (s : RotatingPBFTEngine) : Prop where
  sealerList : s.sealerList = sorted s.chain.sealers
  size : s.sealerList.length ≤ 2 ^ 16
  epochSize : 0 < s.epochSize
  f : s.f = toIdx (min ((s.epochSize - 1).tdiv 3) ((s.sealersNum - 1).tdiv 3))
  placed : s.Placed s.rotatingRound.toNat

structure InStep (s : RotatingPBFTEngine) : Prop extends Windowed s where
  rotatingInterval : s.rotatingInterval = s.chain.epochBlockNum
  rotatingIntervalEnableNumber : s.rotatingIntervalEnableNumber = s.chain.epochBlockEnable
  clamped : s.epochSize = min s.chain.epochSealerNum s.sealerList.length
  enabled : s.chain.epochBlockEnable ≤ s.chain.number ∨ 1 < s.chain.epochBlockNum
  rotatingRound : s.rotatingRound = s.chain.round

structure Unread (s : RotatingPBFTEngine) (c : RotatingChain) : Prop where
  startNodeIdx : s.startNodeIdx = -1
  rotatingInterval : s.rotatingInterval = -1
  sealerListUpdated : s.sealerListUpdated = true
  lastSealerListUpdateNumber : s.lastSealerListUpdateNumber = c.number

section

variable (henabled : c.epochBlockEnable ≤ c.number ∨ 1 < c.epochBlockNum)

include henabled

lemma round_spec : 0 ≤ c.round ∧ c.number - c.epochBlockEnable - c.round * c.epochBlockNum < c.epochBlockNum ∧
    (c.round = 0 ∨ c.round * c.epochBlockNum ≤ c.number - c.epochBlockEnable) := by
  have henable := c.enable_le
  exact tdiv_spec c.epochBlockNum_pos (by omega)

lemma round_eq {r : Int} (hr : 0 ≤ r) (hreached : r = 0 ∨ r * c.epochBlockNum ≤ c.number - c.epochBlockEnable)
    (hdue : c.number - c.epochBlockEnable - r * c.epochBlockNum < 2 * c.epochBlockNum) :
    c.round = if c.number - c.epochBlockEnable - r * c.epochBlockNum < c.epochBlockNum then r else r + 1 := by
  have henable := c.enable_le
  have hpos := c.epochBlockNum_pos
  have hmul : (r + 1) * c.epochBlockNum = r * c.epochBlockNum + c.epochBlockNum := add_one_mul r c.epochBlockNum
  split
  case isTrue hlt => exact (tdiv_unique hpos (by omega) hr hlt hreached).symm
  case isFalse hlt =>
    exact (tdiv_unique hpos (by omega) (by omega) (by omega) (.inr (by omega))).symm

end

lemma exists_round (henabled : c.epochBlockEnable ≤ c.number ∨ 1 < c.epochBlockNum) (hs : s.Windowed ∨ s.Unread c)
    (h : s.Refreshed c s') : ∃ r : ℕ, s'.rotatingRound = r ∧ (r = c.round ∨ c.epochBlockNum = s.rotatingInterval ∧
        c.epochBlockEnable = s.rotatingIntervalEnableNumber ∧ r = s.rotatingRound) ∧
      (s'.startNodeIdx = -1 → s'.currentRound = r) ∧
      (s'.sealerListUpdated = false → s'.rotatingIntervalUpdated = false → s'.Placed r) := by
  cases hupdated : s'.rotatingIntervalUpdated with
  | true =>
    refine ⟨c.round.toNat, ?_⟩
    rw [Int.toNat_of_nonneg (round_spec henabled).1]
    refine ⟨h.interval_updated hupdated, .inl rfl, fun _ => ?_, fun _ h => (nomatch h)⟩
    rw [currentRound, h.chain, h.rotatingInterval, h.rotatingIntervalEnableNumber, RotatingChain.round]
  | false =>
    obtain ⟨hinterval, henable, hround⟩ := h.interval_same hupdated
    rcases hs with hs | hs
    · have hplaced := hs.placed
      refine ⟨_, hround.trans hplaced.rotatingRound, .inr ⟨hinterval, henable, hplaced.rotatingRound.symm⟩, ?_, ?_⟩
      · intro hstart
        have := hplaced.startNodeIdx
        rw [h.startNodeIdx] at hstart
        omega
      · intro hlist _
        have hlist := (h.list_same hlist).trans h.sealerList.symm
        exact {
          sealersNum := by rw [h.sealersNum, ← hlist, hplaced.sealersNum]
          rotatingRound := hround.trans hplaced.rotatingRound
          startNodeIdx := by rw [h.startNodeIdx, ← hlist, hplaced.startNodeIdx]
          chosedConsensusNodes := by
            rw [h.chosedConsensusNodes, ← hlist, h.epochSize, hplaced.chosedConsensusNodes] }
    · have := c.epochBlockNum_pos
      rw [hs.rotatingInterval] at hinterval
      omega

lemma finish_eq (s : RotatingPBFTEngine) : ∃ l changed located, s.updateConsensusInfo.resetLocatedInConsensusNodes =
      { s with chosedSealerList := l, chosedConsNodeChanged := changed, locatedInConsensusNodes := located } := by
  unfold updateConsensusInfo
  split_ifs <;> exact ⟨_, _, _, rfl⟩

/-- `resetConfig` reads its chain, places the window of the round `r` and moves it once if a rotation is due. -/
lemma resetConfig_eq (hsafe : WindowSafe c) (hs : s.Windowed ∨ s.Unread c) :
    ∃ (s' : RotatingPBFTEngine) (r : ℕ) (e : Int), s.Refreshed c s' ∧ s'.Epoch e ∧ 0 < e ∧
      (r = c.round ∨ c.epochBlockNum = s.rotatingInterval ∧
        c.epochBlockEnable = s.rotatingIntervalEnableNumber ∧ r = s.rotatingRound) ∧
      ∃ l changed located, s.resetConfig c = some { (s'.tolerate e).place e
            (if c.number - c.epochBlockEnable - r * c.epochBlockNum < c.epochBlockNum then r else r + 1) changed with
          chosedSealerList := l, locatedInConsensusNodes := located } := by
  have h := s.refresh_refreshed c
  unfold resetConfig
  generalize s.refresh c = s' at h ⊢
  obtain ⟨r, hround, hfrom, hfirst, hplaced⟩ := exists_round hsafe.enabled hs h
  have hlen : 0 < s'.sealerList.length := by
    rw [h.sealerList, length_sorted]
    exact length_pos_iff.mpr c.sealers_ne
  have hnodup : s'.sealerList.Nodup := by
    rw [h.sealerList]
    exact nodup_sorted c.sealers_nodup
  have hinterval : s'.rotatingInterval ≠ -1 := by
    have := c.epochBlockNum_pos
    rw [h.rotatingInterval]
    omega
  have hnum : s'.sealerListUpdated = false → s'.sealersNum = s'.sealerList.length := by
    intro hlist
    rcases hs with hs | hs
    · rw [h.sealersNum, hs.placed.sealersNum, h.list_same hlist, h.sealerList]
    · rw [h.list_updated hs.sealerListUpdated hs.lastSealerListUpdateNumber] at hlist
      cases hlist
  obtain ⟨e, hepoch, changed, hreset⟩ := resetChosedConsensusNodes_eq hlen hinterval hround hfirst hnum hplaced
  refine ⟨s', r, e, h, hepoch, hepoch.pos hlen, hfrom, ?_⟩
  obtain rfl : s'.chain = c := h.chain
  have hchoose : ((s'.tolerate e).place e r changed).chooseConsensusNodes =
      if s'.chain.number - s'.chain.epochBlockEnable - r * s'.chain.epochBlockNum < s'.chain.epochBlockNum
      then some ((s'.tolerate e).place e r changed) else some ((s'.tolerate e).place e (r + 1) true) := by
    rw [← h.rotatingInterval, ← h.rotatingIntervalEnableNumber]
    exact chooseConsensusNodes_place (hepoch.pos hlen) hnodup hlen (h.size hsafe.size) hinterval
  rw [hreset]
  change ∃ l changed' located, ((s'.tolerate e).place e r changed).chooseConsensusNodes.bind (fun t =>
    some t.updateConsensusInfo.resetLocatedInConsensusNodes) = _
  rw [hchoose]
  split
  · obtain ⟨l, changed', located, hfinish⟩ := finish_eq ((s'.tolerate e).place e r changed)
    exact ⟨l, changed', located, congrArg some hfinish⟩
  · obtain ⟨l, changed', located, hfinish⟩ := finish_eq ((s'.tolerate e).place e (r + 1) true)
    exact ⟨l, changed', located, congrArg some hfinish⟩

lemma resetConfig_windowed (hsafe : WindowSafe c) (hs : s.Windowed ∨ s.Unread c) :
    ∃ s', s.resetConfig c = some s' ∧ s'.Windowed := by
  obtain ⟨s', r, e, h, -, he, -, l, changed, located, hconfig⟩ := resetConfig_eq hsafe hs
  obtain rfl : s'.chain = c := h.chain
  exact ⟨_, hconfig, h.sealerList, h.size hsafe.size, he, rfl, rfl, rfl, rfl, rfl⟩

lemma resetConfig_inStep (hsafe : s.RotationSafe c) (hs : s.InStep ∨ s.Unread c) :
    ∃ s', s.resetConfig c = some s' ∧ s'.InStep := by
  obtain ⟨s', r, e, h, hepoch, he, hfrom, l, changed, located, hconfig⟩ :=
    resetConfig_eq ⟨hsafe.enabled, hsafe.size⟩ (hs.imp_left InStep.toWindowed)
  obtain ⟨-, hlt, -⟩ := round_spec hsafe.enabled
  have hpos := c.epochBlockNum_pos
  have hround : ((if c.number - c.epochBlockEnable - r * c.epochBlockNum < c.epochBlockNum then r else r + 1 : ℕ) : Int) =
      c.round := by
    rw [Nat.cast_ite, Nat.cast_succ]
    rcases hfrom with hr | ⟨hinterval, henable, hr⟩
    · rw [hr, if_pos hlt]
    rcases hs with hs | hs
    · obtain ⟨-, -, hold⟩ := round_spec hs.enabled
      have hdue := hsafe.rotation hinterval henable
      have hgrows := hsafe.grows
      rw [← hr] at hdue
      rw [hs.rotatingInterval] at hinterval
      rw [hs.rotatingIntervalEnableNumber] at henable
      rw [← hs.rotatingRound, ← hr, ← hinterval, ← henable] at hold
      exact (round_eq hsafe.enabled (Int.natCast_nonneg r) (by omega) hdue).symm
    · rw [hs.rotatingInterval] at hinterval
      omega
  have hclamped : e = min c.epochSealerNum s'.sealerList.length := by
    have hfits := hsafe.epoch
    rw [← length_sorted c.sealers, ← h.sealerList] at hfits
    unfold Epoch at hepoch
    rw [h.chain, h.epochSize] at hepoch
    omega
  obtain rfl : s'.chain = c := h.chain
  exact ⟨_, hconfig, ⟨h.sealerList, h.size hsafe.size, he, rfl, rfl, rfl, rfl, rfl⟩, h.rotatingInterval,
    h.rotatingIntervalEnableNumber, hclamped, hsafe.enabled, hround⟩

end

section Histories

def CallSafe : Option RotatingPBFTEngine → Call → Prop
  | none, _ => True
  | some s, .resetConfig c => s.RotationSafe c
  | some s, .reportBlock c number => c.number = 0 ∨ s.highestBlock < number → s.RotationSafe c

def Running (o : Option RotatingPBFTEngine) : Prop :=
  ∃ s, o = some s ∧ s.InStep

lemma RotationSafe.highestBlock (h : s.RotationSafe c) (number : Int) : RotationSafe { s with highestBlock := number } c :=
  ⟨h.grows, h.enabled, h.epoch, h.rotation, h.size⟩

lemma Windowed.highestBlock (h : s.Windowed) (number : Int) : Windowed { s with highestBlock := number } :=
  ⟨h.sealerList, h.size, h.epochSize, h.f,
    ⟨h.placed.sealersNum, h.placed.rotatingRound, h.placed.startNodeIdx, h.placed.chosedConsensusNodes⟩⟩

lemma InStep.highestBlock (h : s.InStep) (number : Int) : InStep { s with highestBlock := number } :=
  ⟨h.toWindowed.highestBlock number, h.rotatingInterval, h.rotatingIntervalEnableNumber, h.clamped, h.enabled,
    h.rotatingRound⟩

lemma Running.call {o : Option RotatingPBFTEngine} {e : Call} (hsafe : CallSafe o e)
    (h : Running o) : Running (call o e) := by
  obtain ⟨s, rfl, hs⟩ := h
  cases e with
  | resetConfig =>
    exact resetConfig_inStep hsafe (.inl hs)
  | reportBlock c number =>
    change Running (s.reportBlock c number)
    unfold reportBlock
    split
    case isTrue hnew =>
      exact resetConfig_inStep ((hsafe hnew).highestBlock number) (.inl (hs.highestBlock number))
    case isFalse => exact ⟨s, rfl, hs⟩

variable {keyPair : NodeID} {sealers : List NodeID}

lemma start_eq : start keyPair sealers c =
    { construct keyPair sealers c with highestBlock := c.number }.resetConfig c := by
  have hnonneg := c.number_nonneg
  have hnew : c.number = 0 ∨ (construct keyPair sealers c).highestBlock < c.number := by
    simp only [construct]
    omega
  exact if_pos hnew

lemma running_start (hsafe : (construct keyPair sealers c).RotationSafe c) : Running (start keyPair sealers c) := by
  rw [start_eq]
  exact resetConfig_inStep (hsafe.highestBlock c.number) (.inr ⟨rfl, rfl, rfl, rfl⟩)

lemma InStep.agree {t : RotatingPBFTEngine} (hs : s.InStep) (ht : t.InStep) (hchain : s.chain = t.chain) :
    s.chosedConsensusNodes = t.chosedConsensusNodes ∧ s.startNodeIdx = t.startNodeIdx ∧
      s.epochSize = t.epochSize ∧ s.sealersNum = t.sealersNum ∧ s.f = t.f := by
  have hlist : s.sealerList = t.sealerList := by rw [hs.sealerList, ht.sealerList, hchain]
  have hepoch : s.epochSize = t.epochSize := by rw [hs.clamped, ht.clamped, hchain, hlist]
  have hnum : s.sealersNum = t.sealersNum := by
    rw [hs.placed.sealersNum, ht.placed.sealersNum, hlist]
  refine ⟨?_, ?_, hepoch, hnum, ?_⟩
  · rw [hs.placed.chosedConsensusNodes, ht.placed.chosedConsensusNodes, hlist, hepoch, hs.rotatingRound,
      ht.rotatingRound, hchain]
  · rw [hs.placed.startNodeIdx, ht.placed.startNodeIdx, hlist, hs.rotatingRound, ht.rotatingRound, hchain]
  · rw [hs.f, ht.f, hepoch, hnum]

/-- Two histories of safe calls, from any two starts, that end at the same chain and the same reported block end with
the same consensus nodes, the same leader of every view and the same quorums. -/
theorem consensus_nodes_agree {keyPair₁ keyPair₂ : NodeID} {sealers₁ sealers₂ : List NodeID}
    {c₁ c₂ : RotatingChain} {calls₁ calls₂ : List Call}
    (hstart₁ : (construct keyPair₁ sealers₁ c₁).RotationSafe c₁)
    (hstart₂ : (construct keyPair₂ sealers₂ c₂).RotationSafe c₂)
    (hsafe₁ : Along call CallSafe (start keyPair₁ sealers₁ c₁) calls₁)
    (hsafe₂ : Along call CallSafe (start keyPair₂ sealers₂ c₂) calls₂) :
    ∃ s t, run call (start keyPair₁ sealers₁ c₁) calls₁ = some s ∧
      run call (start keyPair₂ sealers₂ c₂) calls₂ = some t ∧
      (s.chain = t.chain → s.highestBlock = t.highestBlock → s.chosedConsensusNodes = t.chosedConsensusNodes ∧
        (∀ view, s.selectLeader view = t.selectLeader view) ∧
        s.f = t.f ∧ s.minValidNodes = t.minValidNodes) := by
  obtain ⟨s, hs, hins⟩ := invariant_run Running (fun _ _ => Running.call) (running_start hstart₁) hsafe₁
  obtain ⟨t, ht, hint⟩ := invariant_run Running (fun _ _ => Running.call) (running_start hstart₂) hsafe₂
  refine ⟨s, t, hs, ht, fun hchain hhighest => ?_⟩
  obtain ⟨hnodes, hstart, hepoch, hnum, hf⟩ := hins.agree hint hchain
  refine ⟨hnodes, fun view => ?_, hf, ?_⟩
  · rw [selectLeader, selectLeader, hstart, hhighest, hepoch, hnum]
  · rw [minValidNodes, minValidNodes, hepoch, hnum, hf]

def Call.chain : Call → RotatingChain
  | .resetConfig chain => chain
  | .reportBlock chain _ => chain

lemma Windowed.call {e : Call} (hsafe : WindowSafe e.chain) (hs : s.Windowed) :
    ∃ s', call (some s) e = some s' ∧ s'.Windowed := by
  cases e with
  | resetConfig => exact resetConfig_windowed hsafe (.inl hs)
  | reportBlock c number =>
    change ∃ s', s.reportBlock c number = some s' ∧ s'.Windowed
    unfold reportBlock
    split
    case isTrue => exact resetConfig_windowed hsafe (.inl (hs.highestBlock number))
    case isFalse => exact ⟨s, rfl, hs⟩

lemma windowed_run {calls : List Call} (hc : WindowSafe c) (hsafe : ∀ e ∈ calls, WindowSafe e.chain) :
    ∃ s, run call (start keyPair sealers c) calls = some s ∧ s.Windowed := by
  refine foldlRecOn (motive := fun o => ∃ s, o = some s ∧ s.Windowed) calls call ?_ ?_
  · rw [start_eq]
    exact resetConfig_windowed hc (.inr ⟨rfl, rfl, rfl, rfl⟩)
  · rintro _ ⟨s, rfl, hs⟩ e he
    exact hs.call (hsafe e he)

namespace Windowed

open Window Finset

variable (h : s.Windowed)

include h

lemma length_pos : 0 < s.sealerList.length := by
  rw [h.sealerList, length_sorted]
  exact length_pos_iff.mpr s.chain.sealers_ne

lemma exists_leader {view : Int} (hview : 0 ≤ view + s.highestBlock) :
    ∃ node ∈ s.chosedConsensusNodes, s.sealerList[s.selectLeader view]? = some node := by
  have hlen := h.length_pos
  obtain ⟨m, hm⟩ : ∃ m : ℕ, (view + s.highestBlock).tmod s.epochSize = m :=
    ⟨_, (Int.toNat_of_nonneg (Int.tmod_nonneg _ hview)).symm⟩
  have hlt := Int.tmod_lt_of_pos (view + s.highestBlock) h.epochSize
  have hleader : s.selectLeader view = (s.rotatingRound.toNat + m) % s.sealerList.length := by
    unfold selectLeader
    rw [hm, h.placed.startNodeIdx, h.placed.sealersNum, ← Nat.cast_add, tmod_natCast, Nat.mod_add_mod,
      toIdx_natCast ((Nat.mod_lt _ hlen).trans_le h.size)]
  refine ⟨cyclic s.sealerList 0 (s.rotatingRound.toNat + m), ?_, ?_⟩
  · rw [h.placed.chosedConsensusNodes]
    exact mem_image_of_mem _ (mem_Ico.mpr (by omega))
  · rw [hleader, cyclic, getD_eq_getElem _ _ (Nat.mod_lt _ hlen), getElem?_eq_getElem]

lemma minValidNodes_le_card : s.minValidNodes ≤ s.chosedConsensusNodes.card := by
  have hlen := h.length_pos
  have hpos := h.epochSize
  have hsize := h.size
  have hnodup : s.sealerList.Nodup := by
    rw [h.sealerList]
    exact nodup_sorted s.chain.sealers_nodup
  rw [h.placed.chosedConsensusNodes, window_cyclic_min hlen, window,
    card_image_of_injOn (injOn_cyclic hnodup 0 (min_le_right _ _)), Nat.card_Ico]
  have hf := h.f
  rw [h.placed.sealersNum, Int.tdiv_eq_ediv_of_nonneg (by omega), Int.tdiv_eq_ediv_of_nonneg (by omega)] at hf
  rw [minValidNodes, h.placed.sealersNum]
  unfold toIdx at hf ⊢
  omega

end Windowed

/-- The consensus nodes are the window of the sealer list from the start index on, as if collected anew; the leader of
every view is one of them, and they suffice for a quorum. -/
theorem rotating_window {calls : List Call} (hc : WindowSafe c) (hsafe : ∀ e ∈ calls, WindowSafe e.chain) :
    ∃ s, run call (start keyPair sealers c) calls = some s ∧
      s.chosedConsensusNodes = (Finset.range (min s.epochSize.toNat s.sealerList.length)).image
        (fun i => s.sealerList.getD ((s.startNodeIdx.toNat + i) % s.sealerList.length) 0) ∧
      collectNodes s.sealerList s.sealersNum s.epochSize.toNat s.startNodeIdx ∅ = some s.chosedConsensusNodes ∧
      (∀ view, 0 ≤ view + s.highestBlock →
        ∃ node ∈ s.chosedConsensusNodes, s.sealerList[s.selectLeader view]? = some node) ∧
      s.minValidNodes ≤ s.chosedConsensusNodes.card := by
  obtain ⟨s, hs, h⟩ := windowed_run hc hsafe
  refine ⟨s, hs, ?_, ?_, fun view => h.exists_leader, h.minValidNodes_le_card⟩
  · rw [h.placed.chosedConsensusNodes, Window.window_cyclic_min h.length_pos, Window.window_eq_range,
      h.placed.startNodeIdx]
    simp only [Window.cyclic, Int.toNat_natCast, Nat.mod_add_mod]
  · rw [h.placed.sealersNum, h.placed.startNodeIdx, collectNodes_eq h.length_pos, Finset.empty_union,
      h.placed.chosedConsensusNodes]

instance (s : RotatingPBFTEngine) (c : RotatingChain) : Decidable (s.RotationSafe c) :=
  decidable_of_iff (s.chain.number ≤ c.number ∧ (c.epochBlockEnable ≤ c.number ∨ 1 < c.epochBlockNum) ∧
      (c.epochSealerNum = s.epochSize → c.epochSealerNum ≤ c.sealers.length) ∧
      (c.epochBlockNum = s.rotatingInterval → c.epochBlockEnable = s.rotatingIntervalEnableNumber →
        c.number - c.epochBlockEnable - s.rotatingRound * c.epochBlockNum < 2 * c.epochBlockNum) ∧
      c.sealers.length ≤ 2 ^ 16)
    ⟨fun ⟨grows, enabled, epoch, rotation, size⟩ => ⟨grows, enabled, epoch, rotation, size⟩,
      fun h => ⟨h.grows, h.enabled, h.epoch, h.rotation, h.size⟩⟩

instance : ∀ (o : Option RotatingPBFTEngine) (e : Call), Decidable (CallSafe o e)
  | none, _ => isTrue trivial
  | some s, .resetConfig c => inferInstanceAs (Decidable (s.RotationSafe c))
  | some s, .reportBlock c number =>
    inferInstanceAs (Decidable (c.number = 0 ∨ s.highestBlock < number → s.RotationSafe c))

def rotatingChain (number count : ℕ) (epochSealerNum : Int) (h : 0 < epochSealerNum) : RotatingChain where
  number := number
  sealers := (range (count + 1)).map (· + 1)
  epochSealerNum := epochSealerNum
  epochBlockNum := 1
  epochBlockEnable := 0
  number_nonneg := Int.natCast_nonneg number
  sealers_ne := by simp
  sealers_nodup := nodup_range.map (add_left_injective 1)
  epochSealerNum_pos := h
  epochBlockNum_pos := by decide
  enable_le := by omega

instance (c : RotatingChain) : Decidable (WindowSafe c) :=
  decidable_of_iff ((c.epochBlockEnable ≤ c.number ∨ 1 < c.epochBlockNum) ∧ c.sealers.length ≤ 2 ^ 16)
    ⟨fun h => ⟨h.1, h.2⟩, fun h => ⟨h.enabled, h.size⟩⟩

/-- A sealer leaves, and three rotations are due at once. -/
theorem rotating_window_sample : ∃ s, run call (start 1 [] (rotatingChain 0 3 4 (by decide)))
        [.resetConfig (rotatingChain 1 2 4 (by decide)), .resetConfig (rotatingChain 4 2 2 (by decide))] = some s ∧
      s.minValidNodes ≤ s.chosedConsensusNodes.card := by
  obtain ⟨s, hs, -, -, -, hcard⟩ := @rotating_window (rotatingChain 0 3 4 (by decide)) 1 []
    [.resetConfig (rotatingChain 1 2 4 (by decide)), .resetConfig (rotatingChain 4 2 2 (by decide))] (by decide)
    (by decide)
  exact ⟨s, hs, hcard⟩

/-- Rotation after every block, agreed on in block 1 and in force from block 2 on: at block 1 the round is -1, and the
nodes are collected from the index -1 on. -/
theorem not_rotating_window : run call (start 1 [] (rotatingChain 0 3 2 (by decide)))
      [.resetConfig { rotatingChain 1 3 2 (by decide) with epochBlockEnable := 2, enable_le := by decide }] = none := by
  decide +kernel

theorem consensus_nodes_agree_restart : ∃ s t, run call (start 1 [] (rotatingChain 0 3 2 (by decide)))
        [.reportBlock (rotatingChain 1 3 2 (by decide)) 1, .reportBlock (rotatingChain 2 3 2 (by decide)) 2] = some s ∧
      run call (start 4 [] (rotatingChain 2 3 2 (by decide))) [] = some t ∧
      s.chain = t.chain ∧ s.chosedConsensusNodes = t.chosedConsensusNodes ∧
      (∀ view, s.selectLeader view = t.selectLeader view) ∧
      s.f = t.f ∧ s.minValidNodes = t.minValidNodes := by
  obtain ⟨s, t, hs, ht, hagree⟩ := @consensus_nodes_agree 1 4 [] []
    (rotatingChain 0 3 2 (by decide)) (rotatingChain 2 3 2 (by decide))
    [.reportBlock (rotatingChain 1 3 2 (by decide)) 1, .reportBlock (rotatingChain 2 3 2 (by decide)) 2] []
    (by decide +kernel) (by decide +kernel) (by decide +kernel) (by decide +kernel)
  have hread : (run call (start 1 [] (rotatingChain 0 3 2 (by decide)))
        [.reportBlock (rotatingChain 1 3 2 (by decide)) 1,
          .reportBlock (rotatingChain 2 3 2 (by decide)) 2]).map (fun s => (s.chain, s.highestBlock)) =
      (run call (start 4 [] (rotatingChain 2 3 2 (by decide))) []).map (fun s => (s.chain, s.highestBlock)) := by
    decide +kernel
  rw [hs, ht] at hread
  have hread : s.chain = t.chain ∧ s.highestBlock = t.highestBlock := by simpa using hread
  exact ⟨s, t, hs, ht, hread.1, hagree hread.1 hread.2⟩

/-- A sealer leaves and the epoch size that the engine holds, now too large, is taken for the configured one: an engine
started at the new chain has another leader. And an engine that is called again only when three rotations are due makes
one of them: an engine started there has other consensus nodes. -/
theorem not_consensus_nodes_agree : (∃ s t, run call (start 1 [] (rotatingChain 0 3 4 (by decide)))
        [.reportBlock (rotatingChain 1 2 4 (by decide)) 1] = some s ∧
      start 1 [] (rotatingChain 1 2 4 (by decide)) = some t ∧
      s.chain = t.chain ∧ s.highestBlock = t.highestBlock ∧ s.selectLeader 3 ≠ t.selectLeader 3) ∧
    (∃ s t, run call (start 1 [] (rotatingChain 0 3 2 (by decide)))
        [.reportBlock (rotatingChain 3 3 2 (by decide)) 3] = some s ∧
      start 1 [] (rotatingChain 3 3 2 (by decide)) = some t ∧
      s.chain = t.chain ∧ s.highestBlock = t.highestBlock ∧
      s.chosedConsensusNodes ≠ t.chosedConsensusNodes) := by
  refine ⟨⟨_, _, (some_get (by decide +kernel)).symm, (some_get (by decide +kernel)).symm, ?_⟩,
    ⟨_, _, (some_get (by decide +kernel)).symm, (some_get (by decide +kernel)).symm, ?_⟩⟩
  · decide +kernel
  · decide +kernel

end Histories

end RotatingPBFTEngine

end FiscoBcos
