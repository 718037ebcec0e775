import FiscoBcos.Lib.KeyedRows
import FiscoBcos.Lib.Merkle

/-!
# Proofs in Merkle trees of a fixed width

The children of every node are kept under the node, and the parent of every node under the node, in two maps that are
filled in any order. A proof is read off the maps on the way from a leaf up.
-/

namespace Merkle

open List Option Function Prod

variable {d i : Nat}

section

variable {κ : Type*} [DecidableEq κ]

def addChildren : List (κ × List κ) → κ × List κ → List (κ × List κ)
  | [], e => [e]
  | q :: m, e => if q.1 = e.1 then (q.1, q.2 ++ e.2) :: m else q :: addChildren m e

def childrenOf (m : List (κ × List κ)) (parent : κ) : Option (List κ) :=
  (m.find? fun q => q.1 = parent).map snd

def parentOf (assigned : List (κ × κ)) (child : κ) : Option κ :=
  (assigned.reverse.find? fun q => q.1 = child).map snd

/-- The siblings to the left and to the right, from a node up to one without a parent. Without fuel, the walk has not
come to its end. -/
def path (m : List (κ × List κ)) (assigned : List (κ × κ)) : Nat → κ → Option (List (List κ × List κ))
  | 0, _ => none
  | fuel + 1, node =>
    match parentOf assigned node with
    | none => some []
    | some parent =>
      match childrenOf m parent with
      | none => some []
      | some children =>
        if node ∈ children then
          (path m assigned fuel parent).map fun rest =>
            (children.takeWhile (· ≠ node), (children.dropWhile (· ≠ node)).tail) :: rest
        else some []

def climb (hashNodes : List κ → κ) (node : κ) : List (List κ × List κ) → κ
  | [] => node
  | q :: rest => climb hashNodes (hashNodes (q.1 ++ node :: q.2)) rest

def assignments (m : List (κ × List κ)) : List (κ × κ) :=
  m.flatMap fun e => e.2.map fun child => (child, e.1)

variable {m : List (κ × List κ)} {assigned : List (κ × κ)}

lemma addChildren_of_notMem {e : κ × List κ} (h : e.1 ∉ m.map fst) : addChildren m e = m ++ [e] := by
  induction m with
  | nil => rfl
  | cons q m ih =>
    rw [map_cons, mem_cons, not_or] at h
    rw [addChildren, if_neg (Ne.symm h.1), ih h.2]
    rfl

lemma foldl_addChildren {ws : List (κ × List κ)} (h : ((m ++ ws).map fst).Nodup) :
    ws.foldl addChildren m = m ++ ws := by
  induction ws generalizing m with
  | nil => simp
  | cons w ws ih =>
    have hnew : w.1 ∉ m.map fst := by
      rw [map_append, nodup_append] at h
      intro hmem
      exact h.2.2 _ hmem _ (mem_map_of_mem mem_cons_self) rfl
    rw [append_cons] at h
    rw [foldl_cons, addChildren_of_notMem hnew, ih h]
    simp

lemma childrenOf_of_mem (h : (m.map fst).Nodup) {e : κ × List κ} (he : e ∈ m) : childrenOf m e.1 = some e.2 :=
  congrArg (Option.map snd) (KeyedRows.find?_of_nodup h he)

lemma parentOf_of_mem (h : (assigned.map fst).Nodup) {q : κ × κ}
    (hq : q ∈ assigned) : parentOf assigned q.1 = some q.2 := by
  refine congrArg (Option.map snd) (KeyedRows.find?_of_nodup ?_ ?_)
  · rw [map_reverse]
    exact nodup_reverse.mpr h
  · exact mem_reverse.mpr hq

lemma parentOf_of_notMem {child : κ} (h : child ∉ assigned.map fst) : parentOf assigned child = none := by
  unfold parentOf
  rw [find?_eq_none.mpr]
  · rfl
  · intro q hq
    have hne : q.1 ≠ child := fun heq => h (heq ▸ mem_map_of_mem (mem_reverse.mp hq))
    simpa using hne

omit [DecidableEq κ] in
lemma map_fst_assignments (m : List (κ × List κ)) : (assignments m).map fst = m.flatMap snd := by
  unfold assignments
  rw [List.map_flatMap]
  congr 1
  funext e
  rw [List.map_map]
  exact List.map_id _

lemma takeWhile_append_dropWhile_tail {l : List κ} {x : κ} (h : x ∈ l) :
    l.takeWhile (· ≠ x) ++ x :: (l.dropWhile (· ≠ x)).tail = l := by
  induction l with
  | nil => cases h
  | cons y l ih =>
    by_cases hy : y = x
    · simp [hy]
    · have hmem : x ∈ l := (mem_cons.mp h).resolve_left (Ne.symm hy)
      simp only [takeWhile_cons, dropWhile_cons, hy, ne_eq, not_false_eq_true, decide_true, if_true]
      rw [cons_append, ih hmem]

lemma climb_path_step {hashNodes : List κ → κ} {parent : κ} {children : List κ} {node : κ} {fuel : Nat}
    {rest : List (List κ × List κ)} (hparent : parentOf assigned node = some parent)
    (hchildren : childrenOf m parent = some children) (hnode : node ∈ children) (hhash : parent = hashNodes children)
    (hrest : path m assigned fuel parent = some rest) : ∃ proof, path m assigned (fuel + 1) node = some proof ∧
      climb hashNodes node proof = climb hashNodes parent rest := by
  refine ⟨(children.takeWhile (· ≠ node), (children.dropWhile (· ≠ node)).tail) :: rest, ?_, ?_⟩
  · rw [path, hparent]
    dsimp only
    rw [hchildren]
    dsimp only
    rw [if_pos hnode, hrest]
    rfl
  · rw [climb, takeWhile_append_dropWhile_tail hnode, ← hhash]

end

section

variable {α β : Type*} (arity : Nat) (hash : List α → β) (asBytes : β → List α)

def hashNodes (nodes : List (List α)) : List α :=
  asBytes (hash nodes.flatten)

def levelWrites (l : List (List α)) : List (List α × List (List α)) :=
  (range (groups arity l)).map fun i => (asBytes (hash (group arity l i).flatten), group arity l i)

/-- The nodes with their children, level by level, and last the root over the string that is left. -/
def proofWrites : Nat → List (List α) → List (List α × List (List α))
  | 0, l => [(asBytes (hash (l.headD [])), [l.headD []])]
  | k + 1, l =>
    if 1 < l.length then levelWrites arity hash asBytes l ++ proofWrites k (higherLevel arity hash asBytes l)
    else [(asBytes (hash (l.headD [])), [l.headD []])]

variable {arity hash asBytes} {l : List (List α)}

lemma map_fst_levelWrites (l : List (List α)) :
    (levelWrites arity hash asBytes l).map fst = higherLevel arity hash asBytes l := by
  unfold levelWrites higherLevel
  rw [List.map_map]
  rfl

lemma flatMap_group_range {n : Nat} : (range n).flatMap (group arity l) = l.take (n * arity) := by
  induction n with
  | zero => simp
  | succ n ih =>
    rw [range_succ, flatMap_append, ih, flatMap_singleton, Nat.succ_mul, take_add]
    rfl

lemma length_le_groups_mul (harity : 0 < arity) (l : List (List α)) : l.length ≤ groups arity l * arity := by
  unfold groups
  have hmod := Nat.div_add_mod (l.length + arity - 1) arity
  have hlt := Nat.mod_lt (l.length + arity - 1) harity
  rw [Nat.mul_comm] at hmod
  omega

lemma flatMap_snd_levelWrites (harity : 0 < arity) (l : List (List α)) :
    (levelWrites arity hash asBytes l).flatMap snd = l := by
  unfold levelWrites
  rw [flatMap_map]
  exact flatMap_group_range.trans (take_of_length_le (length_le_groups_mul harity l))

def treeNodes (arity : Nat) (hash : List α → β) (asBytes : β → List α) (k : Nat) (l : List (List α)) : List (List α) :=
  l ++ (proofWrites arity hash asBytes k l).map fst

variable {k fuel : Nat} {assigned : List (List α × List α)}

lemma treeNodes_succ (h : 1 < l.length) : treeNodes arity hash asBytes (k + 1) l =
      l ++ treeNodes arity hash asBytes k (higherLevel arity hash asBytes l) := by
  unfold treeNodes
  rw [proofWrites, if_pos h, map_append, map_fst_levelWrites]

lemma proofWrites_of_length_eq_one {x : List α} : proofWrites arity hash asBytes k [x] = [(asBytes (hash x), [x])] := by
  cases k with
  | zero => rfl
  | succ => exact if_neg (by simp)

lemma flatMap_snd_proofWrites (harity : 2 ≤ arity) (hne : l ≠ []) (hk : l.length ≤ k + 1) :
    (proofWrites arity hash asBytes k l).flatMap snd ++
        [asBytes (hash ((reduce arity hash asBytes k l).headD []))] = treeNodes arity hash asBytes k l := by
  refine level_induction hash asBytes harity (fun k x => ?_) (fun k l hlen ih => ?_) hne hk
  · rw [treeNodes, proofWrites_of_length_eq_one, reduce_singleton]
    rfl
  · rw [treeNodes_succ hlen, ← ih, proofWrites, if_pos hlen, reduce, if_pos hlen, flatMap_append,
      flatMap_snd_levelWrites (by omega), append_assoc]

lemma path_of_top [DecidableEq α] {m : List (List α × List (List α))} {x : List α}
    (hend : parentOf assigned (asBytes (hash x)) = none) (hchildren : childrenOf m (asBytes (hash x)) = some [x])
    (hparent : parentOf assigned x = some (asBytes (hash x))) (hfuel : 2 ≤ fuel) :
    ∃ proof, path m assigned fuel x = some proof ∧ climb (hashNodes hash asBytes) x proof = asBytes (hash x) := by
  obtain ⟨fuel, rfl⟩ := Nat.exists_eq_add_of_le' hfuel
  have hlast : path m assigned (fuel + 1) (asBytes (hash x)) = some [] := by
    rw [path, hend]
  have hhash : asBytes (hash x) = hashNodes hash asBytes [x] := by
    unfold hashNodes
    rw [flatten_singleton]
  exact climb_path_step hparent hchildren (mem_singleton_self x) hhash hlast

/-- The way from a node of a level to the root, in maps that hold what is written from this level on. -/
theorem path_of_writes [DecidableEq α] (harity : 2 ≤ arity) (hne : l ≠ []) (hk : l.length ≤ k + 1)
    {m : List (List α × List (List α))}
    (hend : parentOf assigned (asBytes (hash ((reduce arity hash asBytes k l).headD []))) = none)
    (hwrites : ∀ e ∈ proofWrites arity hash asBytes k l, childrenOf m e.1 = some e.2 ∧
      ∀ child ∈ e.2, parentOf assigned child = some e.1) {node : List α} (hnode : node ∈ l) (hfuel : k + 2 ≤ fuel) :
    ∃ proof, path m assigned fuel node = some proof ∧
      climb (hashNodes hash asBytes) node proof = asBytes (hash ((reduce arity hash asBytes k l).headD [])) := by
  revert hend hwrites node fuel
  change ∀ fuel : Nat, _
  refine level_induction hash asBytes harity (fun k x => ?_) (fun k l hlen ih => ?_) hne hk
  · intro fuel hend hwrites node hnode hfuel
    rw [reduce_singleton] at hend ⊢
    rw [proofWrites_of_length_eq_one] at hwrites
    rw [mem_singleton.mp hnode]
    obtain ⟨hchildren, hparents⟩ := hwrites _ mem_cons_self
    exact path_of_top hend hchildren (hparents x (mem_singleton_self x)) (by omega)
  · intro fuel hend hwrites node hnode hfuel
    rw [reduce, if_pos hlen] at hend ⊢
    rw [proofWrites, if_pos hlen] at hwrites
    -- the node is in the group of one of the writes of this level
    have hlevels : (levelWrites arity hash asBytes l).flatMap snd = l := flatMap_snd_levelWrites (by omega) l
    rw [← hlevels] at hnode
    obtain ⟨e, he, hmem⟩ := mem_flatMap.mp hnode
    obtain ⟨hchildren, hparents⟩ := hwrites e (mem_append_left _ he)
    have hhash : e.1 = hashNodes hash asBytes e.2 := by
      obtain ⟨i, -, rfl⟩ := mem_map.mp he
      rfl
    have hup : e.1 ∈ higherLevel arity hash asBytes l := by
      rw [← map_fst_levelWrites]
      exact mem_map_of_mem he
    obtain ⟨fuel, rfl⟩ := Nat.exists_eq_add_of_le' (show 1 ≤ fuel by omega)
    obtain ⟨rest, hrest, hclimb⟩ := ih fuel hend (fun e' he' => hwrites e' (mem_append_right _ he')) hup (by omega)
    obtain ⟨proof, hproof, hsame⟩ := climb_path_step (hparents node hmem) hchildren hmem hhash hrest
    exact ⟨proof, hproof, hsame.trans hclimb⟩

lemma nodup_map_fst_proofWrites (hnodup : (treeNodes arity hash asBytes k l).Nodup) :
    ((proofWrites arity hash asBytes k l).map fst).Nodup :=
  (nodup_append.mp hnodup).2.1

/-- In a tree without equal nodes, the order in which the map is filled does not matter. -/
theorem foldl_addChildren_perm [DecidableEq α] (hnodup : (treeNodes arity hash asBytes k l).Nodup)
    {ws : List (List α × List (List α))} (hws : ws.Perm (proofWrites arity hash asBytes k l)) :
    ws.foldl addChildren [] = ws := by
  have hkeys : (ws.map fst).Nodup := (hws.map fst).nodup_iff.mpr (nodup_map_fst_proofWrites hnodup)
  rw [foldl_addChildren (show (([] ++ ws).map fst).Nodup from hkeys), nil_append]

/-- In a tree without equal nodes, a proof is found for every leaf, in whatever order the maps are filled, and it ends
in the root. -/
theorem climb_path [DecidableEq α] (harity : 2 ≤ arity) (hnodup : (treeNodes arity hash asBytes l.length l).Nodup)
    {ws : List (List α × List (List α))} (hws : ws.Perm (proofWrites arity hash asBytes l.length l))
    (hassigned : assigned.Perm (assignments (proofWrites arity hash asBytes l.length l))) {node : List α}
    (hnode : node ∈ l) (hfuel : l.length + 2 ≤ fuel) : ∃ proof, path ws assigned fuel node = some proof ∧
      climb (hashNodes hash asBytes) node proof = asBytes (root arity hash asBytes l) := by
  have hne : l ≠ [] := ne_nil_of_mem hnode
  have hkids : (proofWrites arity hash asBytes l.length l).flatMap snd ++
      [asBytes (hash ((reduce arity hash asBytes l.length l).headD []))] = treeNodes arity hash asBytes l.length l :=
    flatMap_snd_proofWrites harity hne (Nat.le_succ l.length)
  have hkeys : (ws.map fst).Nodup := (hws.map fst).nodup_iff.mpr (nodup_map_fst_proofWrites hnodup)
  rw [← hkids] at hnodup
  obtain ⟨hchild, -, hroot⟩ := nodup_append.mp hnodup
  have hpairs : (assigned.map fst).Perm ((proofWrites arity hash asBytes l.length l).flatMap snd) := by
    rw [← map_fst_assignments]
    exact hassigned.map fst
  have hone : (assigned.map fst).Nodup := hpairs.nodup_iff.mpr hchild
  have htop : asBytes (root arity hash asBytes l) =
      asBytes (hash ((reduce arity hash asBytes l.length l).headD [])) := by
    unfold root
    rw [if_neg hne]
  rw [htop]
  refine path_of_writes harity hne (Nat.le_succ l.length) ?_ (fun e he => ⟨?_, fun child hchild => ?_⟩) hnode hfuel
  · apply parentOf_of_notMem
    intro hmem
    exact hroot _ (hpairs.mem_iff.mp hmem) _ (mem_singleton_self _) rfl
  · exact childrenOf_of_mem hkeys (hws.mem_iff.mpr he)
  · have hmem : (child, e.1) ∈ assigned := by
      rw [hassigned.mem_iff]
      exact mem_flatMap.mpr ⟨e, he, mem_map_of_mem hchild⟩
    exact parentOf_of_mem hone hmem

lemma mem_treeNodes_of_mem_assignments (harity : 2 ≤ arity) (hne : l ≠ []) {q : List α × List α}
    (hq : q ∈ assignments (proofWrites arity hash asBytes l.length l)) :
    q.1 ∈ treeNodes arity hash asBytes l.length l := by
  rw [← flatMap_snd_proofWrites harity hne (Nat.le_succ l.length), ← map_fst_assignments]
  exact mem_append_left _ (mem_map_of_mem hq)

end

section

variable {α β : Type*} {arity width : Nat} {hash : List α → β} {asBytes : β → List α} {l : List (List α)}

/-- What the leaves have to satisfy for all nodes of the tree to be different: no two leaves and no two groups of them
are the same, no leaf looks like a hash, and no group of leaves looks like a group of hashes of the tree. -/
structure Separated (arity width : Nat) (hash : List α → β) (asBytes : β → List α) (l : List (List α)) : Prop where
  nodup : l.Nodup
  leaf : ∀ x ∈ l, x.length ≠ width
  group : ∀ i < groups arity l, ∀ j < groups arity l, (group arity l i).flatten = (group arity l j).flatten → i = j
  level : ∀ i < groups arity l, ∀ d, ∀ j < groups arity ((higherLevel arity hash asBytes)^[d + 1] l),
    (Merkle.group arity l i).flatten ≠ (Merkle.group arity ((higherLevel arity hash asBytes)^[d + 1] l) j).flatten

lemma head?_group (harity : 0 < arity) (i : Nat) : (group arity l i)[0]? = l[i * arity]? := by
  have h := getElem?_group harity l (i * arity)
  rwa [Nat.mul_div_cancel i harity, Nat.mul_mod_left] at h

lemma mul_lt_length_of_lt_groups (harity : 0 < arity) (h : i < groups arity l) : i * arity < l.length := by
  have hlt := (Nat.lt_div_iff_mul_lt harity).mp h
  omega

lemma group_eq_of_flatten_eq {l' : List (List α)} (hpos : 0 < width) (hl : ∀ x ∈ l, x.length = width)
    (hl' : ∀ x ∈ l', x.length = width) {j : Nat} (h : (group arity l i).flatten = (group arity l' j).flatten) :
    group arity l i = group arity l' j := by
  have hsize : ∀ x ∈ group arity l i, x.length = width := fun x hx => hl x (mem_of_mem_group hx)
  have hsize' : ∀ x ∈ group arity l' j, x.length = width := fun x hx => hl' x (mem_of_mem_group hx)
  have hne : ∀ x : List α, x.length = width → x ≠ [] := by
    rintro x hx rfl
    exact absurd hx (Nat.ne_of_lt hpos)
  apply eq_of_flatten_eq
  · intro n x y hx hy
    rw [hsize x (mem_of_getElem? hx), hsize' y (mem_of_getElem? hy)]
  · exact fun x hx => hne x (hsize x hx)
  · exact fun x hx => hne x (hsize' x hx)
  · exact h

lemma treeNodes_eq_levels (harity : 2 ≤ arity) (hne : l ≠ []) {k : Nat} (hk : l.length ≤ k + 1) :
    ∃ d, treeNodes arity hash asBytes k l = (range d).flatMap fun i => (higherLevel arity hash asBytes)^[i] l := by
  have hsingle : ∀ (k : Nat) (x : List α), treeNodes arity hash asBytes k [x] =
      (range 2).flatMap fun i => (higherLevel arity hash asBytes)^[i] [x] := by
    intro k x
    have hgroups : groups arity [x] = 1 := by
      unfold groups
      rw [length_singleton, Nat.add_sub_cancel_left, Nat.div_self (by omega)]
    have hgroup : group arity [x] 0 = [x] := by
      unfold group
      rw [Nat.zero_mul, drop_zero, take_of_length_le (by simp; omega)]
    have hlevel : higherLevel arity hash asBytes [x] = [asBytes (hash x)] := by
      unfold higherLevel
      rw [hgroups, range_one, map_singleton, hgroup, flatten_singleton]
    unfold treeNodes
    rw [proofWrites_of_length_eq_one]
    simp [range_succ, hlevel]
  refine level_induction hash asBytes harity (fun k x => ⟨2, hsingle k x⟩) (fun k l hlen ih => ?_) hne hk
  obtain ⟨d, hd⟩ := ih
  refine ⟨d + 1, ?_⟩
  rw [treeNodes_succ hlen, hd, range_succ_eq_map, flatMap_cons, flatMap_map]
  rfl

variable (hwidth : ∀ s, (asBytes (hash s)).length = width) (hinj : Function.Injective fun s => asBytes (hash s))
  (hpos : 0 < width) (hsep : Separated arity width hash asBytes l)

lemma exists_group_of_mem_iterate {x : List α} (h : x ∈ (higherLevel arity hash asBytes)^[d + 1] l) :
    ∃ i < groups arity ((higherLevel arity hash asBytes)^[d] l),
      x = asBytes (hash (group arity ((higherLevel arity hash asBytes)^[d] l) i).flatten) := by
  rw [iterate_succ_apply'] at h
  obtain ⟨i, hi, rfl⟩ := mem_map.mp h
  exact ⟨i, mem_range.mp hi, rfl⟩

include hwidth hpos in
/-- Two groups of hashes with the same bytes start with the same hash. -/
theorem first_eq_of_flatten_eq (harity : 0 < arity) {e j : Nat}
    (h : (group arity ((higherLevel arity hash asBytes)^[d + 1] l) i).flatten =
      (group arity ((higherLevel arity hash asBytes)^[e + 1] l) j).flatten) :
    ((higherLevel arity hash asBytes)^[d + 1] l)[i * arity]? = ((higherLevel arity hash asBytes)^[e + 1] l)[j * arity]? := by
  have hgroup := group_eq_of_flatten_eq hpos (fun x hx => length_of_mem_iterate hwidth hx)
    (fun x hx => length_of_mem_iterate hwidth hx) h
  have hfirst := congrArg (·[0]?) hgroup
  simpa only [head?_group harity] using hfirst

include hinj hwidth hpos hsep

lemma iterate_nodup (harity : 0 < arity) (d : Nat) : ((higherLevel arity hash asBytes)^[d] l).Nodup := by
  induction d with
  | zero => exact hsep.nodup
  | succ d ih =>
    rw [iterate_succ_apply']
    refine Nodup.map_on (fun i hi j hj heq => ?_) nodup_range
    rw [mem_range] at hi hj
    have hflat := hinj heq
    cases d with
    | zero => exact hsep.group i hi j hj hflat
    | succ =>
      have hindex := (getElem?_inj (mul_lt_length_of_lt_groups harity hi) ih).mp
        (first_eq_of_flatten_eq hwidth hpos harity hflat)
      exact Nat.eq_of_mul_eq_mul_right harity hindex

lemma iterate_disjoint (harity : 0 < arity) {e : Nat} :
    Disjoint ((higherLevel arity hash asBytes)^[d] l) ((higherLevel arity hash asBytes)^[d + (e + 1)] l) := by
  induction d with
  | zero =>
    intro x hx hx'
    exact hsep.leaf x hx (length_of_mem_iterate hwidth hx')
  | succ d ih =>
    intro x hx hx'
    rw [show d + 1 + (e + 1) = d + (e + 1) + 1 by omega] at hx'
    obtain ⟨i, hi, rfl⟩ := exists_group_of_mem_iterate hx
    obtain ⟨j, hj, heq⟩ := exists_group_of_mem_iterate hx'
    have hflat := hinj heq
    cases d with
    | zero =>
      rw [Nat.zero_add] at hj hflat
      exact hsep.level i hi e j hj hflat
    | succ =>
      have hfirst := first_eq_of_flatten_eq hwidth hpos harity hflat
      have hi' := mul_lt_length_of_lt_groups harity hi
      rw [getElem?_eq_getElem hi'] at hfirst
      exact ih (getElem_mem hi') (mem_of_getElem? hfirst.symm)

lemma treeNodes_nodup (harity : 2 ≤ arity) (hne : l ≠ []) : (treeNodes arity hash asBytes l.length l).Nodup := by
  obtain ⟨d, hd⟩ := @treeNodes_eq_levels _ _ _ hash asBytes l harity hne l.length (Nat.le_succ _)
  rw [hd, nodup_flatMap]
  refine ⟨fun i _ => iterate_nodup hwidth hinj hpos hsep (by omega) i, ?_⟩
  refine pairwise_lt_range.imp fun {i j} hij => ?_
  obtain ⟨e, rfl⟩ := Nat.exists_eq_add_of_lt hij
  exact iterate_disjoint hwidth hinj hpos hsep (by omega)

omit hinj hsep in
lemma treeNodes_nonempty (harity : 2 ≤ arity) (hne : l ≠ []) (hl : ∀ x ∈ l, x ≠ []) :
    ∀ x ∈ treeNodes arity hash asBytes l.length l, x ≠ [] := by
  obtain ⟨d, hd⟩ := @treeNodes_eq_levels _ _ _ hash asBytes l harity hne l.length (Nat.le_succ _)
  intro x hx
  rw [hd] at hx
  obtain ⟨i, -, hmem⟩ := mem_flatMap.mp hx
  cases i with
  | zero => exact hl x hmem
  | succ => exact iterate_nonempty hwidth hpos x hmem

end

section

variable {α β : Type*} {arity : Nat} {hash : List α → β} {asBytes : β → List α} {l : List (List α)}

/-- No hash is made, over any number of steps, from itself. -/
def Acyclic (hash : List α → β) (asBytes : β → List α) : Prop :=
  ∃ rank : β → Nat, ∀ s h, asBytes h <:+: s → rank h < rank (hash s)

lemma length_group : (group arity l i).length = min arity (l.length - i * arity) := by
  unfold group
  rw [length_take, length_drop]

lemma infix_flatten_of_getLast? {x : List α} (h : l.getLast? = some x) : x <:+: l.flatten := by
  obtain ⟨init, rfl⟩ := getLast?_eq_some_iff.mp h
  refine ⟨init.flatten, [], ?_⟩
  simp

variable (harity : 0 < arity) (hne : l ≠ [])

include harity hne

lemma getLast?_group_last : (group arity l (groups arity l - 1)).getLast? = l.getLast? := by
  have hpos := groups_pos harity hne
  have hlt := mul_lt_length_of_lt_groups harity (show groups arity l - 1 < groups arity l by omega)
  have hle := length_le_groups_mul harity l
  have hsucc : groups arity l * arity = (groups arity l - 1) * arity + arity := by
    rw [← Nat.succ_mul, Nat.succ_eq_add_one, Nat.sub_add_cancel hpos]
  unfold group
  rw [take_of_length_le (by rw [length_drop]; omega), getLast?_drop, if_neg (by omega)]

lemma getLast?_higherLevel : (higherLevel arity hash asBytes l).getLast? =
      some (asBytes (hash (group arity l (groups arity l - 1)).flatten)) := by
  have hpos := groups_pos harity hne
  unfold higherLevel
  rw [getLast?_map, getLast?_range, if_neg (by omega)]
  rfl

lemma iterate_ne_nil : (higherLevel arity hash asBytes)^[d] l ≠ [] := by
  induction d with
  | zero => exact hne
  | succ d ih =>
    rw [iterate_succ_apply', ← length_pos_iff, length_higherLevel]
    exact groups_pos harity ih

/-- The last hash of a level is made, over some steps, from the last group of leaves, so it is not in that group. -/
theorem not_infix_last_group (hacyclic : Acyclic hash asBytes)
    {x : List α} (hx : ((higherLevel arity hash asBytes)^[d + 1] l).getLast? = some x) :
    ¬x <:+: (group arity l (groups arity l - 1)).flatten := by
  obtain ⟨rank, hrank⟩ := hacyclic
  have hup : ∀ d, ∃ h, ((higherLevel arity hash asBytes)^[d + 1] l).getLast? = some (asBytes h) ∧
      rank (hash (group arity l (groups arity l - 1)).flatten) ≤ rank h := by
    intro d
    induction d with
    | zero => exact ⟨_, getLast?_higherLevel harity hne, Nat.le_refl _⟩
    | succ d ih =>
      obtain ⟨h, hlast, hle⟩ := ih
      have hlevel : (higherLevel arity hash asBytes)^[d + 1] l ≠ [] := iterate_ne_nil harity hne
      rw [iterate_succ_apply']
      refine ⟨_, getLast?_higherLevel harity hlevel, Nat.le_trans hle (Nat.le_of_lt ?_)⟩
      apply hrank
      apply infix_flatten_of_getLast?
      rw [getLast?_group_last harity hlevel, hlast]
  obtain ⟨h, hlast, hle⟩ := hup d
  rw [hlast] at hx
  cases hx
  intro hinfix
  have := hrank _ h hinfix
  omega

end

end Merkle
