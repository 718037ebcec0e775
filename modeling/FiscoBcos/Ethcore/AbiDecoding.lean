import FiscoBcos.Ethcore.ContractABI

/-!
# Decoding of any bytes

What `abiOut` takes from the data and to which size it brings vectors, whether or not it succeeds. Every position is
recorded as the offsets in the data give it; the code computes it modulo 2^64.
-/

namespace FiscoBcos

open List Option

namespace ContractABI

/-- A word or a string of `size` bytes at the position `exact`, or a vector that gets `length` elements. -/
inductive Access where
  | take (exact size : Nat)
  | resize (length : Nat)
deriving DecidableEq

namespace Access

variable (data : List UInt8)

/-- The sum of the offsets does not wrap around. -/
def Fits : Access → Prop
  | take exact size => exact + size ≤ 2 ^ 64
  | resize _ => True

/-- `validOffset` throws for the last byte. -/
def Misses : Access → Prop
  | take exact size => data.length ≤ (exact + size + (2 ^ 64 - 1)) % 2 ^ 64
  | resize _ => False

/-- The bytes taken are those at the exact position. -/
def Sound : Access → Prop
  | take exact size =>
    exact + size ≤ data.length ∧ cropped data (exact % 2 ^ 64) (size % 2 ^ 64) = (data.drop exact).take size
  | resize _ => True

/-- A vector has at most as many elements as the data has words. -/
def Small : Access → Prop
  | take _ _ => True
  | resize length => length % 2 ^ 64 ≤ data.length / 32

instance : DecidablePred Fits
  | take _ _ => Nat.decLe _ _
  | resize _ => .isTrue trivial

instance : DecidablePred (Misses data)
  | take _ _ => Nat.decLe _ _
  | resize _ => .isFalse not_false

instance : DecidablePred (Sound data)
  | take _ _ => instDecidableAnd
  | resize _ => .isTrue trivial

instance : DecidablePred (Small data)
  | take _ _ => .isTrue trivial
  | resize _ => Nat.decLe _ _

end Access

section

variable (data : List UInt8)

def wordAt (exact : Nat) : Access :=
  .take exact 32

/-- The second walk is made if the first one misses nothing. -/
def andThen (first rest : List Access) : List Access :=
  first ++ if ∀ a ∈ first, ¬a.Misses data then rest else []

/-- The word at `exact` as the code reads it, and what follows from its value. -/
def withWord (exact : Nat) (next : Nat → List Access) : List Access :=
  andThen data [wordAt exact] (next (Rlp.ofBigEndian (cropped data (exact % 2 ^ 64) 32)))

def accessesAll (t : AbiType) (read : Nat → List Access) (exact u : Nat) : Nat → List Access
  | 0 => []
  | n + 1 =>
    let head := exact + u * t.length * 32
    let element := fun this => andThen data (read this) (accessesAll t read exact (u + 1) n)
    if t.dynamic then withWord data head fun o => element (exact + o) else element head

def accesses : AbiType → Nat → List Access
  | .string, exact => withWord data exact fun len => [.take (exact + 32) len]
  | .array t n, exact => accessesAll data t (accesses t) exact 0 n
  | .vector t, exact =>
    withWord data exact fun length =>
      .resize length :: accessesAll data t (accesses t) (exact + 32) 0 (length % 2 ^ 64)
  | _, exact => [wordAt exact]

def accessesOut (exact : Nat) : List AbiType → List Access
  | [] => []
  | t :: ts =>
    let argument := fun this => andThen data (accesses data t this) (accessesOut (exact + t.length * 32) ts)
    if t.dynamic then withWord data exact argument else argument exact

/-- What `abiOut` takes if it succeeds is where the data says, and no vector is made larger than the data. -/
def SoundDecoding (ts : List AbiType) : Prop :=
  ((abiOut data ts).isSome → ∀ a ∈ accessesOut data 0 ts, a.Sound data) ∧ ∀ a ∈ accessesOut data 0 ts, a.Small data

end

section

variable {data : List UInt8} {t : AbiType} {exact : Nat}

lemma forall_andThen {first rest : List Access} : (∀ a ∈ andThen data first rest, ¬a.Misses data) ↔
    (∀ a ∈ first, ¬a.Misses data) ∧ ∀ a ∈ rest, ¬a.Misses data := by
  unfold andThen
  rw [forall_mem_append]
  exact and_congr_right fun h => by rw [if_pos h]

lemma isSome_validOffset {offset : Nat} :
    (validOffset data offset).isSome ↔ ¬data.length ≤ offset % 2 ^ 64 := by
  unfold validOffset
  split <;> simp_all

lemma not_misses_wordAt : ¬(wordAt exact).Misses data ↔ (validOffset data (exact % 2 ^ 64 + 31)).isSome := by
  rw [isSome_validOffset]
  change ¬data.length ≤ (exact + 32 + (2 ^ 64 - 1)) % 2 ^ 64 ↔ _
  rw [show (exact + 32 + (2 ^ 64 - 1)) % 2 ^ 64 = (exact % 2 ^ 64 + 31) % 2 ^ 64 by omega]

lemma isSome_word : (deserialiseU256 data (exact % 2 ^ 64)).isSome ↔ ∀ a ∈ [wordAt exact], ¬a.Misses data := by
  rw [forall_mem_singleton, not_misses_wordAt]
  unfold deserialiseU256
  cases validOffset data (exact % 2 ^ 64 + 31) <;> simp

/-- A reader that takes a word first succeeds if the word is inside the data and the rest succeeds. -/
lemma isSome_withWord {α : Type} {next : Nat → List Access} {k : Nat → Option α}
    (hnext : ∀ n, (k n).isSome ↔ ∀ a ∈ next n, ¬a.Misses data) :
    ((deserialiseU256 data (exact % 2 ^ 64)).bind k).isSome ↔ ∀ a ∈ withWord data exact next, ¬a.Misses data := by
  unfold withWord
  rw [forall_andThen, ← hnext, ← isSome_word]
  unfold deserialiseU256
  cases validOffset data (exact % 2 ^ 64 + 31) <;> simp

lemma isSome_andThen {α β γ : Type} {f : α → β → γ} {x : Option α} {y : Option β} {first rest : List Access}
    (hx : x.isSome ↔ ∀ a ∈ first, ¬a.Misses data) (hy : y.isSome ↔ ∀ a ∈ rest, ¬a.Misses data) :
    (x.bind fun a => y.bind fun b => some (f a b)).isSome ↔ ∀ a ∈ andThen data first rest, ¬a.Misses data := by
  rw [forall_andThen, ← hx, ← hy]
  cases x <;> cases y <;> simp

lemma isSome_deserialiseAll (hread : ∀ exact, (deserialise data t (exact % 2 ^ 64)).isSome ↔
      ∀ a ∈ accesses data t exact, ¬a.Misses data) (exact u n : Nat) :
    (deserialiseAll data t (deserialise data t) (exact % 2 ^ 64) u n).isSome ↔
      ∀ a ∈ accessesAll data t (accesses data t) exact u n, ¬a.Misses data := by
  induction n generalizing u with
  | zero => simp [deserialiseAll, accessesAll]
  | succ n ih =>
    simp only [deserialiseAll, accessesAll, Nat.mod_add_mod, bind_eq_bind]
    cases ht : t.dynamic with
    | false =>
      simp only [Bool.false_eq_true, if_false, bind_some]
      exact isSome_andThen (hread _) (ih (u + 1))
    | true =>
      simp only [if_true, Option.map_eq_bind, Option.bind_assoc, Function.comp, bind_some]
      refine isSome_withWord fun o => ?_
      exact isSome_andThen (hread _) (ih (u + 1))

lemma isSome_deserialise (t : AbiType) (exact : Nat) :
    (deserialise data t (exact % 2 ^ 64)).isSome ↔ ∀ a ∈ accesses data t exact, ¬a.Misses data := by
  induction t generalizing exact with
  | int256 | bool => simp only [deserialise, isSome_map, isSome_word, accesses]
  | uint256 => exact isSome_word
  | address | bytes32 => exact (by simp [deserialise, accesses, not_misses_wordAt])
  | string =>
    refine isSome_withWord fun len => ?_
    rw [forall_mem_singleton]
    change _ ↔ ¬data.length ≤ (exact + 32 + len + (2 ^ 64 - 1)) % 2 ^ 64
    rw [show (exact + 32 + len + (2 ^ 64 - 1)) % 2 ^ 64 =
      (exact % 2 ^ 64 + 32 + len % 2 ^ 64 + (2 ^ 64 - 1)) % 2 ^ 64 by omega, ← isSome_validOffset]
    cases validOffset data (exact % 2 ^ 64 + 32 + len % 2 ^ 64 + (2 ^ 64 - 1)) <;> simp
  | array t n ih => exact isSome_deserialiseAll ih exact 0 n
  | vector t ih =>
    refine isSome_withWord fun length => ?_
    rw [forall_mem_cons, Nat.mod_add_mod]
    exact (isSome_deserialiseAll ih (exact + 32) 0 _).trans (and_iff_right not_false).symm

lemma isSome_abiOutAux (ts : List AbiType) (exact : Nat) :
    (abiOutAux data (exact % 2 ^ 64) ts).isSome ↔ ∀ a ∈ accessesOut data exact ts, ¬a.Misses data := by
  induction ts generalizing exact with
  | nil => simp [abiOutAux, accessesOut]
  | cons t ts ih =>
    simp only [abiOutAux, accessesOut, Nat.mod_add_mod, bind_eq_bind]
    cases ht : t.dynamic with
    | false =>
      exact isSome_andThen (isSome_deserialise t exact) (ih _)
    | true =>
      simp only [if_true, Option.map_eq_bind, Option.bind_assoc, Function.comp, bind_some]
      refine isSome_withWord fun o => ?_
      exact isSome_andThen (isSome_deserialise t o) (ih _)

lemma sound_iff_fits (hdata : data.length < 2 ^ 64) {a : Access} (ha : ¬a.Misses data) : a.Sound data ↔ a.Fits := by
  cases a with
  | resize => exact Iff.rfl
  | take exact size =>
    have hin : ¬data.length ≤ (exact + size + (2 ^ 64 - 1)) % 2 ^ 64 := ha
    refine ⟨fun h => (h.1.trans hdata.le : exact + size ≤ 2 ^ 64), fun h => ?_⟩
    have hle : exact + size ≤ data.length := by
      have hfits : exact + size ≤ 2 ^ 64 := h
      omega
    refine ⟨hle, ?_⟩
    rw [Nat.mod_eq_of_lt (by omega), Nat.mod_eq_of_lt (by omega)]
    exact if_pos hle

end

/-- The encoding of a string of one byte, with the offset `offset`. -/
def oneByte (offset : Nat) : List UInt8 :=
  word offset ++ (word 1 ++ replicate 32 7)

end ContractABI

end FiscoBcos
