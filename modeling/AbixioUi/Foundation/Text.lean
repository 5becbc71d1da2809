import AbixioUi.Foundation.Lists
import Mathlib.Algebra.Group.Nat.Defs
import Mathlib.Data.List.Infix

/-! # Text as character lists

The string functions of the source language that the program computes with,
over lists of Unicode scalar values. Order and equality agree with those of
UTF-8 strings, so keys, prefixes and patterns are compared as the program
compares them. Byte positions matter to one caller only and are recovered from
`utf8Size` there.
-/

namespace AbixioUi.Foundation

/-- A string, as its Unicode scalar values. -/
abbrev Str := List Char

theorem toNat_char_ofNat {n : Nat} (h : n.isValidChar) : (Char.ofNat n).toNat = n := by
  rw [Char.ofNat, dif_pos h]
  rfl

/-- The Unicode `White_Space` property, the set that trimming removes. -/
def isWhitespace (c : Char) : Bool :=
  let n := c.toNat
  (9 ≤ n && n ≤ 13) || n == 32 || n == 0x85 || n == 0xA0 || n == 0x1680 ||
    (0x2000 ≤ n && n ≤ 0x200A) || n == 0x2028 || n == 0x2029 || n == 0x202F ||
    n == 0x205F || n == 0x3000

def trim (s : Str) : Str := (s.reverse.dropWhile isWhitespace).reverse.dropWhile isWhitespace

/-- Remove every leading occurrence of one character. -/
def trimStartMatches (c : Char) (s : Str) : Str := s.dropWhile (· == c)

/-- Remove every trailing occurrence of one character. -/
def trimEndMatches (c : Char) (s : Str) : Str := (s.reverse.dropWhile (· == c)).reverse

/-- The rest of `s` after `p`, when `s` starts with `p`. -/
def stripPrefix : Str → Str → Option Str
  | [], s => some s
  | _ :: _, [] => none
  | a :: p, b :: s => if a = b then stripPrefix p s else none

def endsWith (c : Char) (s : Str) : Bool := s.getLast? == some c

def replaceChar (old new : Char) (s : Str) : Str := s.map fun c => if c = old then new else c

def contains (text pattern : Str) : Bool := decide (pattern <:+: text)

def toAsciiLowercase (s : Str) : Str := s.map Char.toLower

/-- Split at every separator; an empty text has one empty piece. -/
def splitAtChars (isSep : Char → Bool) : Str → List Str
  | [] => [[]]
  | c :: s =>
      if isSep c then [] :: splitAtChars isSep s
      else match splitAtChars isSep s with
        | [] => [[c]]
        | piece :: pieces => (c :: piece) :: pieces

/-- The text of an unsigned number as the formatter prints it. -/
def natToStr (n : Nat) : Str := Nat.toDigits 10 n

/-- Decimal digits, most significant first; empty or non-digit input is rejected. -/
def parseDigits : Str → Option Nat
  | [] => none
  | s => s.foldl (fun acc c =>
      acc.bind fun n => if c.isDigit then some (10 * n + (c.toNat - '0'.toNat)) else none) (some 0)

/-- Integer parsing for an unsigned type of the given width: an optional `+`,
then digits, and a value that fits. -/
def parseUnsigned (bits : Nat) (s : Str) : Option Nat :=
  let digits := match s with
    | '+' :: rest => rest
    | _ => s
  match parseDigits digits with
  | some n => if n < 2 ^ bits then some n else none
  | none => none

/-! ## Prefixes -/

@[simp] theorem stripPrefix_nil (s : Str) : stripPrefix [] s = some s := by
  cases s <;> rfl

theorem stripPrefix_eq_some {p s rest : Str} :
    stripPrefix p s = some rest ↔ s = p ++ rest := by
  induction p generalizing s with
  | nil => simp [eq_comm]
  | cons a p ih =>
      cases s with
      | nil => simp [stripPrefix]
      | cons b s =>
          by_cases h : a = b
          · subst h
            simp [stripPrefix, ih]
          · simp [stripPrefix, h, Ne.symm h]

@[simp] theorem stripPrefix_append (p rest : Str) : stripPrefix p (p ++ rest) = some rest :=
  stripPrefix_eq_some.mpr rfl

/-! ## Trimming one character -/

/-- No leading occurrence of the trimmed character is left. -/
theorem trimStartMatches_head? (c : Char) (s : Str) : (trimStartMatches c s).head? ≠ some c := by
  unfold trimStartMatches
  induction s with
  | nil => simp
  | cons a s ih =>
      by_cases h : a = c
      · simpa [h] using ih
      · simp [h]

theorem trimStartMatches_eq_self {c : Char} {s : Str} :
    trimStartMatches c s = s ↔ s.head? ≠ some c := by
  constructor
  · intro h
    rw [← h]
    exact trimStartMatches_head? c s
  · intro h
    cases s with
    | nil => rfl
    | cons a s =>
        have hac : a ≠ c := by simpa using h
        simp [trimStartMatches, hac]

@[simp] theorem trimStartMatches_cons_self (c : Char) (s : Str) :
    trimStartMatches c (c :: s) = trimStartMatches c s := by
  simp [trimStartMatches]

/-! ## Splitting -/

theorem splitAtChars_ne_nil (isSep : Char → Bool) (s : Str) : splitAtChars isSep s ≠ [] := by
  cases s with
  | nil => simp [splitAtChars]
  | cons c s =>
      simp only [splitAtChars]
      split
      · simp
      · split <;> simp

theorem splitAtChars_of_no_sep {isSep : Char → Bool} {s : Str}
    (h : ∀ c ∈ s, isSep c = false) : splitAtChars isSep s = [s] := by
  induction s with
  | nil => rfl
  | cons c s ih =>
      have hc : isSep c = false := h c (by simp)
      simp [splitAtChars, hc, ih fun d hd => h d (by simp [hd])]

/-- A separator-free piece is split off whole at the separator that ends it. -/
theorem splitAtChars_append_sep {isSep : Char → Bool} {piece : Str} {sep : Char} {rest : Str}
    (hpiece : ∀ c ∈ piece, isSep c = false) (hsep : isSep sep = true) :
    splitAtChars isSep (piece ++ sep :: rest) = piece :: splitAtChars isSep rest := by
  induction piece with
  | nil => simp [splitAtChars, hsep]
  | cons c piece ih =>
      have hc : isSep c = false := hpiece c (by simp)
      simp [splitAtChars, hc, ih fun d hd => hpiece d (by simp [hd])]

/-- Pieces hold characters of the text only, and never a separator. -/
theorem splitAtChars_mem {isSep : Char → Bool} {s piece : Str}
    (h : piece ∈ splitAtChars isSep s) : ∀ c ∈ piece, c ∈ s ∧ isSep c = false := by
  induction s generalizing piece with
  | nil =>
      have : piece = [] := by simpa [splitAtChars] using h
      simp [this]
  | cons a s ih =>
      have hlater : ∀ {piece : Str}, piece ∈ splitAtChars isSep s →
          ∀ c ∈ piece, c ∈ a :: s ∧ isSep c = false :=
        fun hpiece c hc => ⟨List.mem_cons_of_mem _ (ih hpiece c hc).1, (ih hpiece c hc).2⟩
      simp only [splitAtChars] at h
      by_cases ha : isSep a = true
      · rw [if_pos ha] at h
        rcases List.mem_cons.mp h with rfl | h
        · simp
        · exact hlater h
      · rw [if_neg ha] at h
        cases hs : splitAtChars isSep s with
        | nil => exact absurd hs (splitAtChars_ne_nil isSep s)
        | cons first pieces =>
            rw [hs] at h hlater
            rcases List.mem_cons.mp h with rfl | h
            · intro c hc
              rcases List.mem_cons.mp hc with rfl | hc
              · exact ⟨List.mem_cons_self, by simpa using ha⟩
              · exact hlater List.mem_cons_self c hc
            · exact hlater (List.mem_cons_of_mem _ h)

theorem splitAtChars_mem_subset {isSep : Char → Bool} {s piece : Str}
    (h : piece ∈ splitAtChars isSep s) : ∀ c ∈ piece, c ∈ s :=
  fun c hc => (splitAtChars_mem h c hc).1

theorem splitAtChars_mem_no_sep {isSep : Char → Bool} {s piece : Str}
    (h : piece ∈ splitAtChars isSep s) : ∀ c ∈ piece, isSep c = false :=
  fun c hc => (splitAtChars_mem h c hc).2

/-- There is one piece more than there are separators. -/
theorem length_splitAtChars (sep : Char) (s : Str) :
    (splitAtChars (· == sep) s).length = s.count sep + 1 := by
  induction s with
  | nil => rfl
  | cons c s ih =>
      have hpos := List.length_pos_iff.mpr (splitAtChars_ne_nil (· == sep) s)
      rw [List.count_cons]
      simp only [splitAtChars]
      split
      next => rw [List.length_cons, ih]
      next =>
        rw [Nat.add_zero, ← ih]
        split
        next hnil => rw [hnil] at hpos; cases hpos
        next hcons => rw [hcons]; rfl

/-- Splitting undoes joining with a separator that no piece contains. -/
theorem splitAtChars_intercalate {isSep : Char → Bool} {sep : Char} (hsep : isSep sep = true)
    {pieces : List Str} (hne : pieces ≠ [])
    (hpieces : ∀ piece ∈ pieces, ∀ c ∈ piece, isSep c = false) :
    splitAtChars isSep ([sep].intercalate pieces) = pieces := by
  induction pieces with
  | nil => exact absurd rfl hne
  | cons piece pieces ih =>
      have hpiece := hpieces piece (by simp)
      by_cases hrest : pieces = []
      · subst hrest
        rw [List.intercalate_singleton, splitAtChars_of_no_sep hpiece]
      · rw [List.intercalate_cons_of_ne_nil hrest, List.append_assoc, List.singleton_append,
          splitAtChars_append_sep hpiece hsep,
          ih hrest fun p hp => hpieces p (List.mem_cons_of_mem _ hp)]

/-- A text is split at a separator into the pieces of what is before and of what is after
it. -/
theorem splitAtChars_append {isSep : Char → Bool} {sep : Char} (hsep : isSep sep = true)
    (s t : Str) :
    splitAtChars isSep (s ++ sep :: t) = splitAtChars isSep s ++ splitAtChars isSep t := by
  induction s with
  | nil => simp [splitAtChars, hsep]
  | cons c s ih =>
      rw [List.cons_append, splitAtChars, splitAtChars]
      split
      next =>
        rw [ih]
        rfl
      next =>
        rw [ih]
        cases hpieces : splitAtChars isSep s with
        | nil => exact absurd hpieces (splitAtChars_ne_nil isSep s)
        | cons piece pieces => rfl

/-! ## Folding the case -/

theorem toLower_cases (c : Char) :
    c.toLower = c ∨ (65 ≤ c.toNat ∧ c.toNat ≤ 90 ∧ c.toLower.toNat = c.toNat + 32) := by
  delta Char.toLower
  split
  next h =>
    right
    obtain ⟨hlow, hhigh⟩ := h
    have hlow' : 65 ≤ c.val.toNat := hlow
    have hhigh' : c.val.toNat ≤ 90 := hhigh
    refine ⟨hlow', hhigh', ?_⟩
    show (c.val + ('a'.val - 'A'.val)).toNat = c.val.toNat + 32
    have hshift : ('a'.val - 'A'.val).toNat = 32 := by decide
    rw [UInt32.toNat_add, hshift]
    omega
  next => exact .inl rfl

/-- A character before the letters is folded from itself only. -/
theorem toLower_eq_iff {c d : Char} (hd : d.toNat < 65) : c.toLower = d ↔ c = d := by
  rcases toLower_cases c with h | ⟨hlow, -, h⟩
  · rw [h]
  · constructor
    · rintro rfl
      omega
    · rintro rfl
      omega

theorem toLower_toLower (c : Char) : c.toLower.toLower = c.toLower := by
  rcases toLower_cases c with h | ⟨hlow, hhigh, h⟩
  · rw [h, h]
  · rcases toLower_cases c.toLower with h' | ⟨-, hhigh', -⟩
    · exact h'
    · omega

/-- A text of characters before the letters is in a folded text where it was before. -/
theorem infix_toAsciiLowercase_iff {s t : Str} (h : ∀ c ∈ s, c.toNat < 65) :
    s <:+: toAsciiLowercase t ↔ s <:+: t := by
  have hself : ∀ u, toAsciiLowercase u = s ↔ u = s := by
    intro u
    induction s generalizing u with
    | nil => simp [toAsciiLowercase]
    | cons c s ih =>
        obtain ⟨hc, hs⟩ := List.forall_mem_cons.mp h
        cases u with
        | nil => simp [toAsciiLowercase]
        | cons d u =>
            rw [toAsciiLowercase, List.map_cons, List.cons.injEq, List.cons.injEq,
              toLower_eq_iff hc]
            exact and_congr_right fun _ => ih hs u
  constructor
  · rintro ⟨front, back, heq⟩
    obtain ⟨front', back', rfl, hfront, -⟩ := List.map_eq_append_iff.mp heq.symm
    obtain ⟨_, s', rfl, -, hs⟩ := List.map_eq_append_iff.mp hfront
    rw [(hself s').mp hs]
    exact ⟨_, back', rfl⟩
  · intro hdoubled
    have hmap := hdoubled.map Char.toLower
    rwa [show s.map Char.toLower = s from (hself s).mpr rfl] at hmap

/-! ## Replacing one character -/

theorem replaceChar_of_not_mem {old new : Char} {s : Str} (h : old ∉ s) :
    replaceChar old new s = s := by
  unfold replaceChar
  conv_rhs => rw [← List.map_id s]
  apply List.map_congr_left
  intro c hc
  have : c ≠ old := fun e => h (e ▸ hc)
  simp [this]

theorem not_mem_replaceChar {old new : Char} (hne : new ≠ old) (s : Str) :
    old ∉ replaceChar old new s := by
  unfold replaceChar
  intro h
  obtain ⟨c, _, hc⟩ := List.mem_map.mp h
  by_cases e : c = old
  · rw [if_pos e] at hc
    exact hne hc
  · rw [if_neg e] at hc
    exact e hc

theorem mem_replaceChar {old new c : Char} {s : Str} (h : c ∈ replaceChar old new s) :
    c = new ∨ c ∈ s := by
  obtain ⟨d, hd, rfl⟩ := List.mem_map.mp h
  by_cases e : d = old
  · exact .inl (if_pos e)
  · rw [if_neg e]
    exact .inr hd

@[simp] theorem replaceChar_cons (old new c : Char) (s : Str) :
    replaceChar old new (c :: s) = (if c = old then new else c) :: replaceChar old new s := by
  simp [replaceChar]

theorem replaceChar_intercalate (old new sep : Char) (pieces : List Str) :
    replaceChar old new ([sep].intercalate pieces) =
      [if sep = old then new else sep].intercalate (pieces.map (replaceChar old new)) :=
  map_intercalate _ _ _

end AbixioUi.Foundation
