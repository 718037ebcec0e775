import FiscoBcos.Pbft.ReqCache

/-!
# What a count of votes does to a cache

A count walks through a copy of a bucket, checks the signatures of future requests and drops the bad ones from the copy;
in the cache the good ones are only marked as checked, and the bad ones stay.
-/

namespace FiscoBcos

open List

variable {m : ReqMap} {lim : Option Nat} (c : PBFTReqCache) (r : PBFTMsg)

def PBFTMsg.Vouched : Prop :=
  r.isFuture = false ∨ r.signChecked = true

def PBFTMsg.checked : PBFTMsg :=
  { r with signChecked := true }

def goodFuture (check : PBFTMsg → Bool) (r : PBFTMsg) : Bool :=
  r.isFuture && (r.signChecked || check r)

variable {check : PBFTMsg → Bool}

inductive Walked (check : PBFTMsg → Bool) : List PBFTMsg → List PBFTMsg → List PBFTMsg → Prop where
  | nil : Walked check [] [] []
  | keep {r : PBFTMsg} {l copy cache : List PBFTMsg} (hr : r.Vouched) (h : Walked check l copy cache) :
    Walked check (r :: l) (r :: copy) (r :: cache)
  | mark {r : PBFTMsg} {l copy cache : List PBFTMsg} (hr : r.isFuture = true ∧ check r = true)
      (h : Walked check l copy cache) : Walked check (r :: l) (r.checked :: copy) (r.checked :: cache)
  | drop (r : PBFTMsg) {l copy cache : List PBFTMsg} (h : Walked check l copy cache) :
    Walked check (r :: l) copy (r :: cache)

lemma walked_filter (l : List PBFTMsg) : Walked check l (l.filter fun r => !r.isFuture) l := by
  induction l with
  | nil => exact .nil
  | cons r rs ih =>
    cases hfuture : r.isFuture with
    | false => simpa [hfuture] using ih.keep (.inl hfuture)
    | true => simpa [hfuture] using ih.drop r

lemma walked_checkFutureReqs (m : Option Nat) (n : Nat) (l : List PBFTMsg) :
    Walked check l (checkFutureReqs check m n l).1 (checkFutureReqs check m n l).2 := by
  induction l generalizing n with
  | nil => exact .nil
  | cons r rs ih =>
    unfold checkFutureReqs
    split_ifs with hfuture hlimit hdone hgood
    · exact (ih n).keep (.inl hfuture)
    · exact (walked_filter rs).drop r
    · exact (ih (n + 1)).keep (.inr hdone)
    · exact (ih (n + 1)).mark ⟨by simpa using hfuture, hgood⟩
    · exact (ih n).drop r

variable {l copy cache : List PBFTMsg}

section

variable (h : Walked check l copy cache)

include h

lemma Walked.sublist : copy.Sublist cache := by
  induction h with
  | nil => exact .refl _
  | keep _ _ ih | mark _ _ ih => exact ih.cons_cons _
  | drop r _ ih => exact ih.cons r

lemma Walked.vouched : ∀ r ∈ copy, r.Vouched := by
  induction h with
  | nil => exact forall_mem_nil _
  | keep hr _ ih => exact forall_mem_cons.mpr ⟨hr, ih⟩
  | mark _ _ ih => exact forall_mem_cons.mpr ⟨.inr rfl, ih⟩
  | drop _ _ ih => exact ih

lemma Walked.forall₂ :
    List.Forall₂ (fun r r' => r' = r ∨ r.isFuture = true ∧ check r = true ∧ r' = r.checked) l cache := by
  induction h with
  | nil => exact .nil
  | keep _ _ ih => exact .cons (.inl rfl) ih
  | mark hr _ ih => exact .cons (.inr ⟨hr.1, hr.2, rfl⟩) ih
  | drop _ _ ih => exact .cons (.inl rfl) ih

end

lemma length_checkFutureReqs (m n : Nat) (l : List PBFTMsg) : (checkFutureReqs check (some m) n l).1.length =
      l.countP (fun r => !r.isFuture) + min (l.countP (goodFuture check)) (m - n) := by
  induction l generalizing n with
  | nil => simp [checkFutureReqs]
  | cons r rs ih =>
    unfold checkFutureReqs
    rw [countP_cons, countP_cons]
    by_cases hfuture : r.isFuture = false
    · rw [if_pos hfuture]
      simp only [length_cons, ih, hfuture, goodFuture, Bool.not_false, if_true, Bool.false_and]
      simp
      omega
    rw [if_neg hfuture]
    have hf : r.isFuture = true := by simpa using hfuture
    by_cases hlimit : m ≤ n
    · rw [if_pos (by simpa using hlimit)]
      have h0 : m - n = 0 := by omega
      simp [h0, hf, countP_eq_length_filter]
    rw [if_neg (by simpa using hlimit)]
    by_cases hdone : r.signChecked = true
    · rw [if_pos hdone]
      simp only [length_cons, ih, hf, hdone, goodFuture, Bool.true_or, Bool.and_self, Bool.not_true, if_true]
      simp
      omega
    rw [if_neg hdone]
    by_cases hgood : check r = true
    · rw [if_pos hgood]
      simp only [length_cons, ih, hf, hgood, goodFuture, Bool.or_true, Bool.and_self, Bool.not_true, if_true]
      simp
      omega
    · rw [if_neg hgood]
      simp [ih, hf, goodFuture, hdone, hgood]

/-- A cache after a count: nothing new in it, except that some future requests with good signatures are now marked as
checked. -/
def Recounted (check : PBFTMsg → Bool) (m m' : ReqMap) : Prop :=
  ∀ k, m'.bucket k = [] ∨ List.Forall₂ (fun r r' => r' = r ∨ r.isFuture = true ∧ check r = true ∧ r' = r.checked)
      (m.bucket k) (m'.bucket k)

lemma Recounted.refl (m : ReqMap) : Recounted check m m :=
  fun _ => .inr (forall₂_same.mpr fun _ _ => .inl rfl)

lemma Recounted.mem {m' : ReqMap} (h : Recounted check m m') {k : Hash} {r' : PBFTMsg} (hr : r' ∈ m'.bucket k) :
    ∃ r ∈ m.bucket k, r' = r ∨ r.isFuture = true ∧ check r = true ∧ r' = r.checked := by
  rcases h k with hnil | hall
  · simp [hnil] at hr
  · obtain ⟨i, hi, rfl⟩ := getElem_of_mem hr
    have hlen := hall.length_eq
    exact ⟨(m.bucket k)[i], getElem_mem _, forall₂_iff_get.mp hall |>.2 i (by omega) hi⟩

lemma recounted_checkAndRemoveInvalidFutureReq {h : Hash} :
    Recounted check m (checkAndRemoveInvalidFutureReq check lim m h).2 := by
  intro k
  unfold checkAndRemoveInvalidFutureReq
  dsimp only
  split
  · rw [BucketMap.bucket_erase]
    by_cases hk : k = h
    · exact .inl (if_pos hk)
    · rw [if_neg hk]
      exact Recounted.refl m k
  · rw [BucketMap.bucket_rewrite]
    by_cases hk : k = h
    · rw [if_pos hk]
      exact .inr (walked_checkFutureReqs lim 0 (m.bucket k)).forall₂
    · rw [if_neg hk]
      exact Recounted.refl m k

def PBFTEngine.Counted (m : ReqMap) (h : Hash) (n : Nat) : Prop :=
  ∃ copy : List PBFTMsg, copy.Sublist (m.bucket h) ∧ n ≤ copy.length ∧ ∀ r ∈ copy, r.Vouched

lemma counted_checkAndRemoveInvalidFutureReq (lim : Option Nat) (m : ReqMap) (h : Hash) :
    PBFTEngine.Counted (checkAndRemoveInvalidFutureReq check lim m h).2 h
      (checkAndRemoveInvalidFutureReq check lim m h).1 := by
  unfold checkAndRemoveInvalidFutureReq
  dsimp only
  split
  · exact ⟨[], nil_sublist _, le_refl 0, forall_mem_nil _⟩
  have hwalk := @walked_checkFutureReqs check lim 0 (m.bucket h)
  refine ⟨_, ?_, le_refl _, hwalk.vouched⟩
  rw [BucketMap.bucket_rewrite, if_pos rfl]
  exact hwalk.sublist

/-- The size of the bucket of `h`, and the cache, if that is counted only from the size `n` on. -/
def countReqs (check : PBFTMsg → Bool) (lim : Option Nat) (m : ReqMap) (h : Hash) (n : Nat) : Nat × ReqMap :=
  if n ≤ (m.bucket h).length then checkAndRemoveInvalidFutureReq check lim m h else ((m.bucket h).length, m)

lemma countReqs_spec {h : Hash} {n : Nat} : Recounted check m (countReqs check lim m h n).2 ∧
      (n ≤ (countReqs check lim m h n).1 → PBFTEngine.Counted (countReqs check lim m h n).2 h n) := by
  unfold countReqs
  split
  · refine ⟨recounted_checkAndRemoveInvalidFutureReq, fun hn => ?_⟩
    obtain ⟨copy, hsub, hlen, hall⟩ := @counted_checkAndRemoveInvalidFutureReq check lim m h
    exact ⟨copy, hsub, hn.trans hlen, hall⟩
  · rename_i hlt
    exact ⟨Recounted.refl m, fun hn => absurd hn hlt⟩

lemma PBFTReqCache.getSigCacheSize_eq (h : Hash) (n : Nat) : getSigCacheSize check c h n =
    ((countReqs check (some (predIdx n)) c.signCache h n).1,
      { c with signCache := (countReqs check (some (predIdx n)) c.signCache h n).2 }) := by
  unfold getSigCacheSize countReqs
  split <;> rfl

lemma PBFTReqCache.getCommitCacheSize_eq (h : Hash) (n : Nat) : getCommitCacheSize check c h n =
    ((countReqs check none c.commitCache h n).1,
      { c with commitCache := (countReqs check none c.commitCache h n).2 }) := by
  unfold getCommitCacheSize countReqs
  split <;> rfl

end FiscoBcos
