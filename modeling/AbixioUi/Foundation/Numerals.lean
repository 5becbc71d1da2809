import AbixioUi.Foundation.Lists
import AbixioUi.Foundation.Text

/-! # Numerals

Which texts the integer parsers accept, and with which value. A numeral is a
nonempty run of decimal digits, after at most one plus sign.
-/

namespace AbixioUi.Foundation

/-! ## Digits -/

def digitValue (c : Char) : Nat := c.toNat - '0'.toNat

theorem digit_toNat {c : Char} (h : c.isDigit = true) : 48 ≤ c.toNat ∧ c.toNat ≤ 57 := by
  simp only [Char.isDigit, Bool.and_eq_true, decide_eq_true_eq] at h
  exact h

/-- The value of a run of digits, most significant first. -/
def digitsValue (s : Str) : Nat := s.foldl (fun n c => 10 * n + digitValue c) 0

/-- A nonempty run of decimal digits. -/
def IsDigits (s : Str) : Prop := s ≠ [] ∧ ∀ c ∈ s, c.isDigit = true

/-- A decimal numeral of the given value. -/
def IsNumeral (s : Str) (n : Nat) : Prop :=
  ∃ digits, (s = digits ∨ s = '+' :: digits) ∧ IsDigits digits ∧ digitsValue digits = n

/-- The loop of the digit parser, from an accumulator. -/
theorem foldl_digits (s : Str) (acc : Option Nat) :
    s.foldl (fun acc c => acc.bind fun n =>
        if c.isDigit then some (10 * n + (c.toNat - '0'.toNat)) else none) acc =
      acc.bind fun n =>
        if s.all (·.isDigit) then some (s.foldl (fun n c => 10 * n + digitValue c) n)
        else none := by
  induction s generalizing acc with
  | nil => simp
  | cons c s ih =>
      rw [List.foldl_cons, ih]
      cases acc with
      | none => rfl
      | some n =>
          rw [Option.bind_some, Option.bind_some, List.all_cons]
          cases hc : c.isDigit with
          | true => rfl
          | false => rfl

theorem parseDigits_eq_some {s : Str} {n : Nat} :
    parseDigits s = some n ↔ IsDigits s ∧ digitsValue s = n := by
  cases s with
  | nil => simp [parseDigits, IsDigits]
  | cons c s =>
      have hfold := foldl_digits (c :: s) (some 0)
      change (c :: s).foldl _ (some 0) = some n ↔ _
      rw [hfold]
      simp [IsDigits, digitsValue]

/-- The text behind the sign that it may carry. -/
def withoutPlus (s : Str) : Str :=
  match s with
  | '+' :: rest => rest
  | _ => s

theorem isNumeral_iff {s : Str} {n : Nat} :
    IsNumeral s n ↔ parseDigits (withoutPlus s) = some n := by
  have hplus : ¬ ('+' : Char).isDigit = true := by decide
  rw [parseDigits_eq_some]
  unfold withoutPlus
  constructor
  · rintro ⟨digits, rfl | rfl, hdigits, hvalue⟩
    · split
      next rest => exact absurd (hdigits.2 '+' List.mem_cons_self) hplus
      next => exact ⟨hdigits, hvalue⟩
    · exact ⟨hdigits, hvalue⟩
  · intro h
    split at h
    next rest => exact ⟨rest, .inr rfl, h.1, h.2⟩
    next => exact ⟨s, .inl rfl, h.1, h.2⟩

theorem parseUnsigned_eq (bits : Nat) (s : Str) :
    parseUnsigned bits s =
      (parseDigits (withoutPlus s)).bind fun n => if n < 2 ^ bits then some n else none := by
  unfold parseUnsigned
  dsimp only
  split
  next m hparse =>
    have hdigits : parseDigits (withoutPlus s) = some m := hparse
    rw [hdigits, Option.bind_some]
  next hparse =>
    have hdigits : parseDigits (withoutPlus s) = none := hparse
    rw [hdigits, Option.bind_none]

theorem parseUnsigned_eq_some {bits : Nat} {s : Str} {n : Nat} :
    parseUnsigned bits s = some n ↔ IsNumeral s n ∧ n < 2 ^ bits := by
  rw [isNumeral_iff, parseUnsigned_eq, Option.bind_eq_some_iff]
  constructor
  · rintro ⟨m, hparse, hm⟩
    split at hm
    next hlt =>
      obtain rfl := Option.some.inj hm
      exact ⟨hparse, hlt⟩
    next => cases hm
  · rintro ⟨hparse, hlt⟩
    exact ⟨n, hparse, if_pos hlt⟩

theorem parseUnsigned_of_digits (bits : Nat) {s : Str} (h : IsDigits s) :
    parseUnsigned bits s = if digitsValue s < 2 ^ bits then some (digitsValue s) else none := by
  have hself : IsNumeral s (digitsValue s) := ⟨s, .inl rfl, h, rfl⟩
  by_cases hlt : digitsValue s < 2 ^ bits
  · rw [if_pos hlt]
    exact parseUnsigned_eq_some.mpr ⟨hself, hlt⟩
  · rw [if_neg hlt, Option.eq_none_iff_forall_not_mem]
    intro n hn
    obtain ⟨hnumeral, hbound⟩ := parseUnsigned_eq_some.mp hn
    rw [isNumeral_iff] at hnumeral hself
    obtain rfl : digitsValue s = n := Option.some.inj (hself.symm.trans hnumeral)
    exact hlt hbound

/-- A numeral ends in a digit. -/
theorem IsNumeral.getLast? {s : Str} {n : Nat} (h : IsNumeral s n) :
    ∃ c, s.getLast? = some c ∧ c.isDigit = true := by
  obtain ⟨digits, hs, ⟨hne, hdigits⟩, -⟩ := h
  have hlast := List.getLast_mem hne
  refine ⟨digits.getLast hne, ?_, hdigits _ hlast⟩
  rcases hs with rfl | rfl
  · exact List.getLast?_eq_getLast_of_ne_nil hne
  · rw [List.getLast?_cons, List.getLast?_eq_getLast_of_ne_nil hne]
    rfl

/-- Two runs of digits that a further character follows are the same run. -/
theorem digits_append_inj {p q : Str} {a b : Char} {s t : Str}
    (hp : ∀ c ∈ p, c.isDigit = true) (hq : ∀ c ∈ q, c.isDigit = true)
    (ha : a.isDigit = false) (hb : b.isDigit = false) (h : p ++ a :: s = q ++ b :: t) :
    p = q ∧ a = b ∧ s = t := by
  induction p generalizing q with
  | nil =>
      cases q with
      | nil => simpa using h
      | cons c q =>
          have hac : a = c := (List.cons.inj h).1
          rw [hac, hq c List.mem_cons_self] at ha
          cases ha
  | cons c p ih =>
      cases q with
      | nil =>
          have hcb : c = b := (List.cons.inj h).1
          rw [← hcb, hp c List.mem_cons_self] at hb
          cases hb
      | cons d q =>
          obtain ⟨hcd, hrest⟩ := List.cons.inj h
          obtain ⟨hpq, hab, hst⟩ := ih (fun c hc => hp c (List.mem_cons_of_mem _ hc))
            (fun c hc => hq c (List.mem_cons_of_mem _ hc)) hrest
          exact ⟨by rw [hcd, hpq], hab, hst⟩

/-! ## Trimming -/

theorem trim_of_no_whitespace {s : Str} (h : ∀ c ∈ s, isWhitespace c = false) : trim s = s := by
  have hfront : s.dropWhile isWhitespace = s :=
    dropWhile_of_head fun c hc => h c (List.mem_of_head? hc)
  have hback : s.reverse.dropWhile isWhitespace = s.reverse :=
    dropWhile_of_head fun c hc => h c (List.mem_reverse.mp (List.mem_of_head? hc))
  rw [trim, hback, List.reverse_reverse, hfront]

theorem isWhitespace_of_isDigit {c : Char} (h : c.isDigit = true) : isWhitespace c = false := by
  have hrange := digit_toNat h
  simp only [isWhitespace, Bool.or_eq_false_iff, Bool.and_eq_false_iff, decide_eq_false_iff_not,
    beq_eq_false_iff_ne]
  omega

/-- Nothing is trimmed twice. -/
@[simp] theorem trim_trim (s : Str) : trim (trim s) = trim s := by
  have hhead : ∀ s : Str, ∀ c, (s.dropWhile isWhitespace).head? = some c →
      isWhitespace c = false := by
    intro s c hc
    have hnot := List.head?_dropWhile_not isWhitespace s
    rw [hc] at hnot
    simpa using hnot
  -- What the front drops leaves the last character that the back kept.
  have hlast : ∀ c, (trim s).reverse.head? = some c → isWhitespace c = false := by
    intro c hc
    rw [List.head?_reverse] at hc
    obtain ⟨front, hfront⟩ := List.dropWhile_suffix isWhitespace
      (l := (s.reverse.dropWhile isWhitespace).reverse)
    have hkept : (s.reverse.dropWhile isWhitespace).reverse.getLast? = some c := by
      have htrim : (trim s).getLast?.or front.getLast? = some c := by
        rw [hc]
        rfl
      rw [← hfront, List.getLast?_append]
      exact htrim
    rw [List.getLast?_reverse] at hkept
    exact hhead _ c hkept
  have hback : (trim s).reverse.dropWhile isWhitespace = (trim s).reverse :=
    dropWhile_of_head hlast
  have hfront : (trim s).dropWhile isWhitespace = trim s := dropWhile_of_head (hhead _)
  rw [trim, hback, List.reverse_reverse, hfront]

end AbixioUi.Foundation
