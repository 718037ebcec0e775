import FiscoBcos.Lib.BucketMap
import FiscoBcos.Chain.PartiallyBlock
import FiscoBcos.Pbft.Message

/-!
# The cache of received requests

`PBFTReqCache` and `PartiallyPBFTReqCache`. Sign and commit requests are filed by block hash and, in
one bucket, by the bytes of the signature; view-change requests by view and sealer index.
-/

namespace FiscoBcos

/-- `unordered_map<h256, unordered_map<string, Req>>`, the inner key being the hex of `sig`. -/
abbrev ReqMap := BucketMap PBFTMsg PBFTMsg.blockHash PBFTMsg.sig

structure PartiallyPrepare extends PrepareReq where
  proposal : PartiallyBlock := {}
deriving DecidableEq

structure PBFTReqCache where
  prepareCache : PrepareReq := {}
  /-- The proposal whose execution gave `prepareCache`, `none` while that is cleared. The engine does not keep it; it is
  here to say what the votes in the caches are votes for. -/
  proposal : Option PrepareReq := none
  rawPrepareCache : PrepareReq := {}
  signCache : ReqMap := .empty
  commitCache : ReqMap := .empty
  /-- the buckets in the order in which they are walked through -/
  recvViewChangeReq : List (Int × List ViewChangeReq) := []
  latestViewChangeReqCache : List ViewChangeReq := []
  committedPrepareCache : PrepareReq := {}
  futurePrepareCache : List PrepareReq := []
  partiallyRawPrepare : Option PartiallyPrepare := none
  partiallyFuturePrepare : Option PartiallyPrepare := none

variable (c : PBFTReqCache) (req : ViewChangeReq) (E : Env) (check : PBFTMsg → Bool)
  (blockNumber highest number view : Int) (idx : Nat)

def maxFuturePrepareCacheSize : Nat := 10

/-- `checkAndRemoveInvalidFutureReq` walking through its copy of a bucket, with the number of future requests counted so
far. The first list is the copy when the walk is over; the second is the bucket in the cache, where only the
`signChecked` flags behind the shared pointers have changed. -/
def checkFutureReqs (check : PBFTMsg → Bool) (limitedSize : Option Nat) :
    Nat → List PBFTMsg → List PBFTMsg × List PBFTMsg
  | _, [] => ([], [])
  | n, r :: rs =>
    if r.isFuture = false then
      let q := checkFutureReqs check limitedSize n rs
      (r :: q.1, r :: q.2)
    else if limitedSize.any (fun m => decide (m ≤ n)) = true then
      (rs.filter fun r => !r.isFuture, r :: rs)
    else if r.signChecked = true then
      let q := checkFutureReqs check limitedSize (n + 1) rs
      (r :: q.1, r :: q.2)
    else if check r = true then
      let q := checkFutureReqs check limitedSize (n + 1) rs
      ({ r with signChecked := true } :: q.1, { r with signChecked := true } :: q.2)
    else
      let q := checkFutureReqs check limitedSize n rs
      (q.1, r :: q.2)

lemma checkFutureReqs_labels (check : PBFTMsg → Bool) (m : Option Nat) (n : Nat) (l : List PBFTMsg) :
    (checkFutureReqs check m n l).2.map (fun r => (r.blockHash, r.sig)) = l.map fun r => (r.blockHash, r.sig) := by
  induction l generalizing n with
  | nil => rfl
  | cons r rs ih =>
    unfold checkFutureReqs
    split
    · simp [ih]
    split
    · rfl
    · split
      · simp [ih]
      · split <;> simp [ih]

/-- `checkAndRemoveInvalidFutureReq`: the size of the filtered copy. The bucket in the cache loses nothing, unless the
copy has become empty. -/
def checkAndRemoveInvalidFutureReq (limitedSize : Option Nat) (cache : ReqMap) (h : Hash) : Nat × ReqMap :=
  let copy := (checkFutureReqs check limitedSize 0 (cache.bucket h)).1
  if copy = [] then (0, cache.erase h)
  else
    (copy.length, cache.rewrite h (fun l => (checkFutureReqs check limitedSize 0 l).2)
      (checkFutureReqs_labels check limitedSize 0))

def predIdx (n : Nat) : Nat :=
  (n + MAXIDX) % (MAXIDX + 1)

namespace PBFTReqCache

def isExistPrepare (req : PrepareReq) : Bool :=
  c.rawPrepareCache.blockHash == req.blockHash

def isExistSign (req : SignReq) : Bool :=
  c.signCache.contains req.blockHash req.sig

def isExistCommit (req : CommitReq) : Bool :=
  c.commitCache.contains req.blockHash req.sig

def getSigCacheSize (c : PBFTReqCache) (h : Hash) (n : Nat) : Nat × PBFTReqCache :=
  if n ≤ (c.signCache.bucket h).length then
    let q := checkAndRemoveInvalidFutureReq check (some (predIdx n)) c.signCache h
    (q.1, { c with signCache := q.2 })
  else ((c.signCache.bucket h).length, c)

def getCommitCacheSize (c : PBFTReqCache) (h : Hash) (n : Nat) : Nat × PBFTReqCache :=
  if n ≤ (c.commitCache.bucket h).length then
    let q := checkAndRemoveInvalidFutureReq check none c.commitCache h
    (q.1, { c with commitCache := q.2 })
  else ((c.commitCache.bucket h).length, c)

def clearPrepareCache : PBFTReqCache :=
  { c with prepareCache := c.prepareCache.clear, proposal := none }

def addRawPrepare (req : PrepareReq) : PBFTReqCache :=
  { c with rawPrepareCache := req }.clearPrepareCache

/-- `removeInvalidSignCache` and `removeInvalidCommitCache` on one of the two maps. -/
def removeInvalidReqs (m : ReqMap) (h : Hash) (view : Int) : ReqMap :=
  m.filter fun r => r.blockHash != h || r.view == view

def addPrepareReq (proposal req : PrepareReq) : PBFTReqCache :=
  { c with
    prepareCache := req
    proposal := some proposal
    signCache := removeInvalidReqs c.signCache req.blockHash req.view
    commitCache := removeInvalidReqs c.commitCache req.blockHash req.view }

def addSignReq (req : SignReq) : PBFTReqCache :=
  { c with signCache := c.signCache.add req }

def addCommitReq (req : CommitReq) : PBFTReqCache :=
  { c with commitCache := c.commitCache.add req }

def updateCommittedPrepare : PBFTReqCache :=
  { c with committedPrepareCache := c.rawPrepareCache }

def futurePrepare? : Option PrepareReq :=
  c.futurePrepareCache.find? fun r => r.height == number

def addFuturePrepareCache (req : PrepareReq) : PBFTReqCache :=
  if maxFuturePrepareCacheSize ≤ c.futurePrepareCache.length then c
  else if (c.futurePrepare? req.height).isSome then c
  else { c with futurePrepareCache := req :: c.futurePrepareCache }

def eraseHandledFutureReq : PBFTReqCache :=
  { c with futurePrepareCache := c.futurePrepareCache.filter fun r => r.height != number }

def removeInvalidFutureCache : PBFTReqCache :=
  { c with futurePrepareCache := c.futurePrepareCache.filter fun r => decide (highest < r.height) }

def generateAndSetSigList (b : Block) (minSigSize : Nat) : Block :=
  match c.commitCache.find c.prepareCache.blockHash with
  | none => b
  | some l =>
    if l.length < minSigSize then b else { b with sigList := l.map fun r => (r.idx, r.sig) }

def delCache (c : PBFTReqCache) (header : BlockHeader) : PBFTReqCache :=
  let h := E.headerHash header
  let c := { c with signCache := c.signCache.erase h, commitCache := c.commitCache.erase h }
  let c := if h = c.prepareCache.blockHash then c.clearPrepareCache else c
  c.removeInvalidFutureCache header.number

-- `height < highest` or `height == highest` with another hash: what the garbage collectors drop
def isStale (highest : BlockHeader) (r : PBFTMsg) : Bool :=
  decide (r.height < highest.number) || (decide (r.height = highest.number) && r.blockHash != E.headerHash highest)

def viewBucket : List ViewChangeReq :=
  ((c.recvViewChangeReq.find? fun q => q.1 == view).map Prod.snd).getD []

def getViewChangeSize (toView : Int) : Nat :=
  (c.viewBucket toView).length

def isExistViewChange : Bool :=
  (c.viewBucket req.view).any fun r => r.idx == req.idx

def latestViewChange? : Option ViewChangeReq :=
  c.latestViewChangeReqCache.find? fun r => r.idx == idx

def eraseLatest : PBFTReqCache :=
  { c with
    latestViewChangeReqCache := c.latestViewChangeReqCache.filter fun r => r.idx != idx }

def updateViewBucket (f : List ViewChangeReq → List ViewChangeReq) : PBFTReqCache :=
  { c with
    recvViewChangeReq := c.recvViewChangeReq.map fun q => if q.1 = view then (q.1, f q.2) else q }

def eraseExpiredViewChange : PBFTReqCache :=
  match c.latestViewChange? req.idx with
  | none => c
  | some v =>
    match (c.viewBucket v.view).find? (fun r => r.idx == req.idx) with
    | none => c
    | some v' =>
      -- the source compares the pointers; both maps got the request from one `addViewChangeReq`
      let c := if v = v' then c.updateViewBucket v.view (List.filter fun r => r.idx != req.idx) else c
      c.eraseLatest req.idx

def checkViewChangeReq : Bool × PBFTReqCache :=
  if req.height < blockNumber then (false, c)
  else
    match c.latestViewChange? req.idx with
    | none => (true, c)
    | some v =>
      if v.height < blockNumber then (true, c.eraseExpiredViewChange v)
      else if req.height < v.height then (false, c)
      else if req.view < v.view then (false, c)
      else (true, c)

def insertViewChange : PBFTReqCache :=
  if (c.recvViewChangeReq.find? fun q => q.1 == req.view).isSome then
    c.updateViewBucket req.view fun l =>
      if l.any (fun r => r.idx == req.idx) then l.map fun r => if r.idx = req.idx then req else r
      else l ++ [req]
  else { c with recvViewChangeReq := c.recvViewChangeReq ++ [(req.view, [req])] }

def addViewChangeReq : PBFTReqCache :=
  let q := c.checkViewChangeReq req blockNumber
  if q.1 then
    let c := (q.2.eraseExpiredViewChange req).insertViewChange req
    let c := c.eraseLatest req.idx
    { c with latestViewChangeReqCache := req :: c.latestViewChangeReqCache }
  else q.2

-- `idx_view_map`, `minView` and `min_height` of `canTriggerViewChange`
structure FastViewChange where
  idxViewMap : List (Nat × Int) := []
  minView : Int := MAXVIEW
  minHeight : Int := 2 ^ 63 - 1

def FastViewChange.visit (w : FastViewChange) (view : Int) (r : ViewChangeReq) : FastViewChange :=
  let known := w.idxViewMap.find? fun q => q.1 == r.idx
  if known.all (fun q => decide (q.2 < view)) && decide (highest ≤ r.height) then
    { idxViewMap := (r.idx, view) :: w.idxViewMap.filter fun q => q.1 != r.idx
      minView := min w.minView view
      minHeight := min w.minHeight r.height }
  else w

def canTriggerViewChange (maxInvalidNodeNum : Nat) (toView : Int)
    (highest : BlockHeader) (consensusBlockNumber : Int) : Bool × Int :=
  let w := c.recvViewChangeReq.foldl (fun w q =>
      if toView < q.1 then q.2.foldl (fun w r => w.visit highest.number q.1 r) w else w)
    ({} : FastViewChange)
  let flag := w.minHeight == consensusBlockNumber && w.minHeight == c.committedPrepareCache.height
  (decide (maxInvalidNodeNum < w.idxViewMap.length % (MAXIDX + 1)) && !flag, w.minView)

section

variable (c : PBFTReqCache)

def delInvalidViewChange (highest : BlockHeader) : PBFTReqCache :=
  { c with
    recvViewChangeReq :=
      (c.recvViewChangeReq.map fun q => (q.1, q.2.filter fun r => !isStale E highest r)).filter fun q => !q.2.isEmpty }

def removeInvalidLatestViewChangeReq (highest : BlockHeader) : PBFTReqCache :=
  { c with
    latestViewChangeReqCache := c.latestViewChangeReqCache.filter fun r => !isStale E highest r }

def removeInvalidViewChange (view : Int) (highest : BlockHeader) : PBFTReqCache :=
  if (c.recvViewChangeReq.find? fun q => q.1 == view).isNone then c
  else
    (c.updateViewBucket view (List.filter fun r => !isStale E highest r)).removeInvalidLatestViewChangeReq E highest

def collectGarbage (highest : BlockHeader) : PBFTReqCache :=
  let c :=
    { c with
      signCache := c.signCache.prune fun r => !isStale E highest r
      commitCache := c.commitCache.prune fun r => !isStale E highest r }
  ((c.removeInvalidFutureCache highest.number).delInvalidViewChange
    E highest).removeInvalidLatestViewChangeReq E highest

end

def triggerViewChange (curView highest : Int) : PBFTReqCache :=
  let c := { c with rawPrepareCache := c.rawPrepareCache.clear }.clearPrepareCache
  let commits := c.commitCache.filter fun r => r.view == curView
  -- an emptied bucket of the commit cache still counts as a hash with commit requests
  let known := fun h => (commits.find h).isSome
  let c :=
    { c with
      commitCache := commits
      signCache := (c.signCache.filter fun r => r.view == curView).restrict known }
  let c := c.removeInvalidFutureCache highest
  { c with
    futurePrepareCache := c.futurePrepareCache.filter fun r => known r.blockHash
    recvViewChangeReq := c.recvViewChangeReq.filter fun q => decide (curView < q.1)
    latestViewChangeReqCache := c.latestViewChangeReqCache.filter fun r => decide (curView < r.view) }

def addPartiallyFuturePrepare (req : PartiallyPrepare) : PBFTReqCache :=
  match c.partiallyFuturePrepare with
  | none => { c with partiallyFuturePrepare := some req }
  | some r =>
    if r.height < req.height ∨ (req.height = r.height ∧ r.view < req.view) then
      { c with partiallyFuturePrepare := some req }
    else c

-- `m_rawPrepareCache = m_partiallyRawPrepare`, with the block encoded in full; unlike
-- `addRawPrepare` this leaves the prepare cache alone
def transPartiallyPrepareIntoRawPrepare (req : PrepareReq) : PBFTReqCache :=
  { c with rawPrepareCache := req, partiallyRawPrepare := none }

end PBFTReqCache

def PartiallyPrepare.complete (p : PartiallyPrepare) : PrepareReq :=
  { p.toPrepareReq with
    block := E.encodeBlock p.proposal.toBlock
    pBlock := some p.proposal.toBlock }

end FiscoBcos
