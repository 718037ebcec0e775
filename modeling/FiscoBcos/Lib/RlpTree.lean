import FiscoBcos.Lib.RlpCanonical

/-!
# Trees of byte strings

Lists of items nest. The coding of a tree puts the coding of its subtrees one after the other, with their size in
front.
-/

namespace Rlp

inductive Item (α : Type) where
  | leaf (a : α)
  | list (ts : List (Item α))

namespace Item

variable {α β : Type}

@[elab_as_elim]
lemma induction {P : Item α → Prop} (leaf : ∀ a, P (.leaf a)) (list : ∀ ts, (∀ t ∈ ts, P t) → P (.list ts))
    (t : Item α) : P t :=
  @Item.rec α P (fun ts => ∀ t ∈ ts, P t) leaf list nofun (fun _ _ head tail _ hmem => by
      cases hmem with
      | head => exact head
      | tail _ hmem => exact tail _ hmem) t

mutual

def map (f : α → β) : Item α → Item β
  | .leaf a => .leaf (f a)
  | .list ts => .list (mapAll f ts)

def mapAll (f : α → β) : List (Item α) → List (Item β)
  | [] => []
  | t :: ts => map f t :: mapAll f ts

end

mutual

def height : Item α → Nat
  | .leaf _ => 0
  | .list ts => heightAll ts + 1

def heightAll : List (Item α) → Nat
  | [] => 0
  | t :: ts => max (height t) (heightAll ts)

end

mutual

def encode : Item (List UInt8) → List UInt8
  | .leaf s => appendBytes s
  | .list ts => appendList (encodeAll ts)

def encodeAll : List (Item (List UInt8)) → List UInt8
  | [] => []
  | t :: ts => encode t ++ encodeAll ts

end

mutual

def Announced : Item (List UInt8) → Prop
  | .leaf s => Fits s
  | .list ts => Fits (encodeAll ts) ∧ AnnouncedAll ts

def AnnouncedAll : List (Item (List UInt8)) → Prop
  | [] => True
  | t :: ts => Announced t ∧ AnnouncedAll ts

end

mutual

def All (p : α → Prop) : Item α → Prop
  | .leaf a => p a
  | .list ts => AllList p ts

def AllList (p : α → Prop) : List (Item α) → Prop
  | [] => True
  | t :: ts => All p t ∧ AllList p ts

end

lemma height_le_heightAll {t : Item α} {ts : List (Item α)} (h : t ∈ ts) : height t ≤ heightAll ts := by
  induction ts with
  | nil => cases h
  | cons t' ts ih =>
    cases h with
    | head => exact le_max_left _ _
    | tail _ hmem => exact (ih hmem).trans (le_max_right _ _)

lemma announcedAll_iff {ts : List (Item (List UInt8))} : AnnouncedAll ts ↔ ∀ t ∈ ts, Announced t := by
  induction ts with
  | nil => exact ⟨fun _ => nofun, fun _ => trivial⟩
  | cons t ts ih =>
    unfold AnnouncedAll
    rw [ih, List.forall_mem_cons]

lemma encodeAll_eq (ts : List (Item (List UInt8))) : encodeAll ts = (ts.map encode).flatten := by
  induction ts with
  | nil => rfl
  | cons t ts ih =>
    unfold encodeAll
    rw [ih, List.map_cons, List.flatten_cons]

lemma actualSize_encode {t : Item (List UInt8)} (h : Announced t) (rest : List UInt8) :
    actualSize (encode t ++ rest) = some (encode t).length := by
  cases t with
  | leaf => exact (encodes_appendBytes h).size rest
  | list => exact (appendList_spec h.1).1 rest

lemma encode_ne_nil {t : Item (List UInt8)} (h : Announced t) : encode t ≠ [] := by
  cases t with
  | leaf => exact (encodes_appendBytes h).ne_nil
  | list ts =>
    change appendList (encodeAll ts) ≠ []
    unfold appendList
    split <;> exact nofun

end Item

end Rlp
