import FiscoBcos.Storage.OpenTable

/-!
# Hexadecimal texts

On texts of lower-case digits `fromHex` is the inverse of `toHex`. Other texts can be read to the same bytes: `0x` in front
is skipped, capital letters are read like small ones, and a text of the wrong length makes the hash zero.
-/

namespace FiscoBcos

open List Option Char

def toLower (text : Str) : Str :=
  text.map Char.toLower

def hexDigit (n : Nat) : Char :=
  if n < 10 then ofNat (n + '0'.toNat) else ofNat (n - 10 + 'a'.toNat)

def toHex (bytes : Str) : Str :=
  bytes.flatMap fun c => [hexDigit (c.toNat / 16), hexDigit (c.toNat % 16)]

def IsHexDigit (c : Char) : Prop :=
  ('0' ≤ c ∧ c ≤ '9') ∨ ('a' ≤ c ∧ c ≤ 'f')

instance (c : Char) : Decidable (IsHexDigit c) :=
  inferInstanceAs (Decidable (_ ∨ _))

section

variable {c : Char} {n : Nat}

lemma char_le_iff {a b : Char} : a ≤ b ↔ a.toNat ≤ b.toNat :=
  Iff.rfl

lemma toNat_ofNat_of_lt (h : n < 256) : (ofNat n).toNat = n := by
  have hvalid : n.isValidChar := .inl (by omega)
  rw [ofNat, dif_pos hvalid]
  rfl

lemma fromHexChar_toLower (h : fromHexChar c = some n) : n < 16 ∧ fromHexChar c.toLower = some n := by
  have hbound : c.toNat < 103 := by
    unfold fromHexChar at h
    simp only [char_le_iff] at h
    have h9 : '9'.toNat = 57 := rfl
    have hf : 'f'.toNat = 102 := rfl
    have hF : 'F'.toNat = 70 := rfl
    split_ifs at h <;> omega
  have hall : ∀ m < 103, ∀ k ∈ fromHexChar (ofNat m), k < 16 ∧ fromHexChar (ofNat m).toLower = some k := by
    decide +kernel
  have hc := hall c.toNat hbound n
  rw [ofNat_toNat] at hc
  exact hc h

lemma IsHexDigit.fromHexChar (h : IsHexDigit c) : ∃ n, fromHexChar c = some n ∧ hexDigit n = c := by
  unfold FiscoBcos.fromHexChar hexDigit
  have h9 : '9'.toNat = '0'.toNat + 9 := rfl
  cases h with
  | inl hdigit =>
    refine ⟨_, if_pos hdigit, ?_⟩
    rw [char_le_iff, char_le_iff] at hdigit
    rw [if_pos (by omega), Nat.sub_add_cancel hdigit.1, ofNat_toNat]
  | inr hletter =>
    have hnot : ¬('0' ≤ c ∧ c ≤ '9') := by
      intro h
      rw [char_le_iff] at h hletter
      have : 'a'.toNat = '9'.toNat + 40 := rfl
      have := char_le_iff.mp h.2
      omega
    refine ⟨_, (if_neg hnot).trans (if_pos hletter), ?_⟩
    rw [char_le_iff, char_le_iff] at hletter
    rw [if_neg (by omega), Nat.add_sub_cancel, Nat.sub_add_cancel hletter.1, ofNat_toNat]

lemma hexDigit_fromHexChar (hc : IsHexDigit c) (h : fromHexChar c = some n) : hexDigit n = c := by
  obtain ⟨m, hm, hdigit⟩ := hc.fromHexChar
  rw [hm] at h
  rw [← some.inj h]
  exact hdigit

end

section

variable {text bytes : Str}

lemma hexPairs_cons_cons (h l : Char) (rest : Str) : hexPairs (h :: l :: rest) =
      (fromHexChar h).bind fun h => (fromHexChar l).bind fun l =>
        (hexPairs rest).map fun rest => ofNat (h * 16 + l) :: rest := by
  rw [hexPairs]
  cases fromHexChar h with
  | none => rfl
  | some =>
    cases fromHexChar l with
    | none => rfl
    | some => cases hexPairs rest <;> rfl

lemma of_hexPairs_cons_cons {high low : Char} (h : hexPairs (high :: low :: text) = some bytes) : ∃ a b tail,
    fromHexChar high = some a ∧ fromHexChar low = some b ∧ hexPairs text = some tail ∧ ofNat (a * 16 + b) :: tail = bytes := by
  rw [hexPairs_cons_cons] at h
  obtain ⟨a, ha, h⟩ := bind_eq_some_iff.mp h
  obtain ⟨b, hb, h⟩ := bind_eq_some_iff.mp h
  obtain ⟨tail, htail, h⟩ := map_eq_some_iff.mp h
  exact ⟨a, b, tail, ha, hb, htail, h⟩

section

variable (htext : ∀ c ∈ text, IsHexDigit c)

include htext

lemma toHex_hexPairs (h : hexPairs text = some bytes) : toHex bytes = text ∧ ∀ c ∈ bytes, c.toNat < 256 := by
  induction text using hexPairs.induct generalizing bytes with
  | case1 =>
    cases h
    exact ⟨rfl, forall_mem_nil _⟩
  | case2 => cases h
  | case3 high low rest ih =>
    obtain ⟨a, b, tail, ha, hb, htail, rfl⟩ := of_hexPairs_cons_cons h
    have ha' := (fromHexChar_toLower ha).1
    have hb' := (fromHexChar_toLower hb).1
    have hnat : (ofNat (a * 16 + b)).toNat = a * 16 + b := toNat_ofNat_of_lt (by omega)
    obtain ⟨hrest, hlt⟩ := ih (fun c hc => htext c (mem_cons_of_mem _ (mem_cons_of_mem _ hc))) htail
    constructor
    · change hexDigit _ :: hexDigit _ :: toHex tail = _
      rw [hnat, hrest, show (a * 16 + b) / 16 = a by omega, show (a * 16 + b) % 16 = b by omega,
        hexDigit_fromHexChar (htext _ mem_cons_self) ha,
        hexDigit_fromHexChar (htext _ (mem_cons_of_mem _ mem_cons_self)) hb]
    · intro c hc
      cases mem_cons.mp hc with
      | inl heq =>
        rw [heq, hnat]
        omega
      | inr hmem => exact hlt c hmem

lemma exists_hexPairs (heven : text.length % 2 = 0) :
    ∃ bytes, hexPairs text = some bytes ∧ 2 * bytes.length = text.length := by
  induction text using hexPairs.induct with
  | case1 => exact ⟨[], rfl, rfl⟩
  | case2 => simp at heven
  | case3 high low rest ih =>
    obtain ⟨a, ha, -⟩ := (htext high mem_cons_self).fromHexChar
    obtain ⟨b, hb, -⟩ := (htext low (mem_cons_of_mem _ mem_cons_self)).fromHexChar
    rw [length_cons, length_cons] at heven
    obtain ⟨tail, htail, hlength⟩ :=
      ih (fun c hc => htext c (mem_cons_of_mem _ (mem_cons_of_mem _ hc))) (by omega)
    refine ⟨ofNat (a * 16 + b) :: tail, ?_, ?_⟩
    · rw [hexPairs_cons_cons, ha, hb, htail]
      rfl
    · rw [length_cons, length_cons, length_cons]
      omega

lemma isPrefixOf_zero_x : "0x".toList.isPrefixOf text = false := by
  rw [Bool.eq_false_iff]
  intro h
  obtain ⟨rest, rfl⟩ := isPrefixOf_iff_prefix.mp h
  exact absurd (htext 'x' (by simp)) (by decide)

lemma fromHex_digits (heven : text.length % 2 = 0) :
    fromHex text = hexPairs text ∧ fromHex ("0x".toList ++ text) = hexPairs text := by
  have hmarker : "0x".toList.isPrefixOf ("0x".toList ++ text) = true := isPrefixOf_iff_prefix.mpr ⟨text, rfl⟩
  unfold fromHex
  rw [isPrefixOf_zero_x htext, hmarker]
  cases text with
  | nil => exact ⟨rfl, rfl⟩
  | cons c rest =>
    have hodd : ¬(c :: rest).length % 2 = 1 := by omega
    exact ⟨if_neg hodd, if_neg hodd⟩

lemma eq_of_hexPairs_eq {text' : Str} (htext' : ∀ c ∈ text', IsHexDigit c)
    (h : hexPairs text = some bytes) (h' : hexPairs text' = some bytes) : text = text' := by
  rw [← (toHex_hexPairs htext h).1]
  exact (toHex_hexPairs htext' h').1

end

lemma isHexDigit_hexDigit : ∀ n < 16, IsHexDigit (hexDigit n) := by
  decide

lemma isHexDigit_toHex (h : ∀ c ∈ bytes, c.toNat < 256) : ∀ c ∈ toHex bytes, IsHexDigit c := by
  intro c hc
  obtain ⟨byte, hbyte, hc⟩ := mem_flatMap.mp hc
  have hlt := h byte hbyte
  cases mem_cons.mp hc with
  | inl heq =>
    rw [heq]
    exact isHexDigit_hexDigit _ (by omega)
  | inr hmem =>
    rw [mem_singleton.mp hmem]
    exact isHexDigit_hexDigit _ (by omega)

lemma length_toHex (bytes : Str) : (toHex bytes).length = 2 * bytes.length := by
  induction bytes with
  | nil => rfl
  | cons c bytes ih =>
    change (toHex bytes).length + 1 + 1 = _
    rw [ih, length_cons]
    omega

end

section

variable {bytes text : Str}

lemma hexPairs_toLower (h : hexPairs text = some bytes) : hexPairs (toLower text) = some bytes := by
  induction text using hexPairs.induct generalizing bytes with
  | case1 => exact h
  | case2 => cases h
  | case3 high low rest ih =>
    obtain ⟨a, b, tail, ha, hb, htail, rfl⟩ := of_hexPairs_cons_cons h
    change hexPairs (high.toLower :: low.toLower :: toLower rest) = _
    rw [hexPairs_cons_cons, (fromHexChar_toLower ha).2, (fromHexChar_toLower hb).2, ih htail]
    rfl

lemma fromHexChar_ne_none_of_hexPairs (h : hexPairs text = some bytes) {c : Char} (hc : c ∈ text) :
    fromHexChar c ≠ none := by
  induction text using hexPairs.induct generalizing bytes with
  | case1 => cases hc
  | case2 => cases h
  | case3 high low rest ih =>
    obtain ⟨a, b, tail, ha, hb, htail, rfl⟩ := of_hexPairs_cons_cons h
    simp only [mem_cons] at hc
    rcases hc with rfl | rfl | hc
    · simp [ha]
    · simp [hb]
    · exact ih htail hc

def hexBytes (text : Str) : Option Str :=
  match text with
  | [] => some []
  | h :: rest =>
    if text.length % 2 = 1 then (fromHexChar h).bind fun h => (hexPairs rest).map fun rest => ofNat h :: rest
    else hexPairs text

lemma fromHex_eq (text : Str) :
    fromHex text = hexBytes (if "0x".toList.isPrefixOf text then text.drop 2 else text) := by
  unfold fromHex hexBytes
  generalize (if "0x".toList.isPrefixOf text then text.drop 2 else text) = digits
  cases digits with
  | nil => rfl
  | cons h rest =>
    dsimp only
    split
    · cases fromHexChar h with
      | none => rfl
      | some => cases hexPairs rest <;> rfl
    · rfl

lemma hexBytes_toLower (h : hexBytes text = some bytes) :
    hexBytes (toLower text) = some bytes ∧ ∀ c ∈ text, fromHexChar c ≠ none := by
  cases text with
  | nil => exact ⟨h, forall_mem_nil _⟩
  | cons c rest =>
    have hlength : (c.toLower :: toLower rest).length = (c :: rest).length := by simp [toLower]
    change hexBytes (c.toLower :: toLower rest) = _ ∧ _
    unfold hexBytes at h ⊢
    dsimp only at h ⊢
    rw [hlength]
    split at h
    · rename_i hodd
      obtain ⟨a, ha, h⟩ := bind_eq_some_iff.mp h
      obtain ⟨tail, htail, rfl⟩ := map_eq_some_iff.mp h
      rw [if_pos hodd, (fromHexChar_toLower ha).2, hexPairs_toLower htail]
      refine ⟨rfl, fun d hd => ?_⟩
      cases mem_cons.mp hd with
      | inl heq => simp [heq, ha]
      | inr hrest => exact fromHexChar_ne_none_of_hexPairs htail hrest
    · rename_i heven
      rw [if_neg heven]
      exact ⟨hexPairs_toLower h, fun d hd => fromHexChar_ne_none_of_hexPairs h hd⟩

lemma fromHex_toLower (h : fromHex text = some bytes) : fromHex (toLower text) = some bytes := by
  rw [fromHex_eq] at h ⊢
  by_cases hmarker : "0x".toList.isPrefixOf text = true
  · obtain ⟨rest, rfl⟩ := isPrefixOf_iff_prefix.mp hmarker
    exact (hexBytes_toLower h).1
  · rw [if_neg hmarker] at h
    obtain ⟨hread, hvalid⟩ := hexBytes_toLower h
    -- the second character of the text is a digit, and x is none
    have hnot : "0x".toList.isPrefixOf (toLower text) ≠ true := by
      intro hp
      obtain ⟨rest, hrest⟩ := isPrefixOf_iff_prefix.mp hp
      have hx : 'x' ∈ toLower text := by simp [← hrest]
      obtain ⟨c, hc, hcx⟩ := mem_map.mp hx
      obtain ⟨n, hn⟩ := ne_none_iff_exists'.mp (hvalid c hc)
      have hlower := (fromHexChar_toLower hn).2
      rw [hcx, show fromHexChar 'x' = none by decide] at hlower
      cases hlower
    rw [if_neg hnot]
    exact hread

lemma toAddress_toLower {address : Str} (h : toAddress text = some address) :
    toAddress (toLower text) = some address := by
  unfold toAddress at h ⊢
  obtain ⟨bytes, hbytes, rfl⟩ := map_eq_some_iff.mp h
  rw [fromHex_toLower hbytes]
  rfl

end

section

structure H160 where
  bytes : Str
  length : bytes.length = 20
  byte : ∀ c ∈ bytes, c.toNat < 256
deriving DecidableEq

def H160.hexPrefixed (a : H160) : Str :=
  "0x".toList ++ toHex a.bytes

def IsAddressText (text : Str) : Prop :=
  text.take 2 = "0x".toList ∧ text.length = 42 ∧ ∀ c ∈ text.drop 2, IsHexDigit c

lemma H160.isAddressText (a : H160) : IsAddressText a.hexPrefixed := by
  refine ⟨rfl, ?_, isHexDigit_toHex a.byte⟩
  unfold H160.hexPrefixed
  rw [length_append, length_toHex, a.length]
  rfl

end

end FiscoBcos
