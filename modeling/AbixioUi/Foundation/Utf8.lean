import AbixioUi.Foundation.Text

/-! # Lossy decoding of UTF-8

Bytes are read as units: a well-formed sequence of one to four bytes, or the longest
front of one that the next byte does not continue. A unit of the first kind is its
character, and one of the second is a replacement character.
-/

namespace AbixioUi.Foundation

/-! ## Bytes of a sequence -/

/-- The length of a sequence by its leading byte; none starts with the others. -/
def utf8CharWidth (lead : UInt8) : Nat :=
  if lead.toNat < 0x80 then 1
  else if lead.toNat < 0xC2 then 0
  else if lead.toNat < 0xE0 then 2
  else if lead.toNat < 0xF0 then 3
  else if lead.toNat < 0xF5 then 4
  else 0

def isContinuation (byte : UInt8) : Bool := decide (0x80 ≤ byte.toNat ∧ byte.toNat ≤ 0xBF)

/-- The second byte, where overlong forms, surrogates and what is beyond the last code
point are excluded. -/
def admitsSecond (lead second : UInt8) : Bool :=
  if lead.toNat = 0xE0 then decide (0xA0 ≤ second.toNat ∧ second.toNat ≤ 0xBF)
  else if lead.toNat = 0xED then decide (0x80 ≤ second.toNat ∧ second.toNat ≤ 0x9F)
  else if lead.toNat = 0xF0 then decide (0x90 ≤ second.toNat ∧ second.toNat ≤ 0xBF)
  else if lead.toNat = 0xF4 then decide (0x80 ≤ second.toNat ∧ second.toNat ≤ 0x8F)
  else isContinuation second

/-- At most `n` bytes of the front, the first as admitted and continuation bytes after it. -/
def tailBytes : Nat → (UInt8 → Bool) → List UInt8 → List UInt8
  | 0, _, _ => []
  | _ + 1, _, [] => []
  | n + 1, admits, byte :: rest =>
      if admits byte then byte :: tailBytes n isContinuation rest else []

/-! ## Units -/

structure Utf8Unit where
  lead : UInt8
  tail : List UInt8
deriving DecidableEq, Repr

namespace Utf8Unit

/-- The sequence is complete. -/
def wellFormed (unit : Utf8Unit) : Bool := unit.tail.length + 1 == utf8CharWidth unit.lead

/-- The bits that the leading byte has for the code point. -/
def leadBits (lead : UInt8) : Nat :=
  if lead.toNat < 0x80 then lead.toNat
  else if lead.toNat < 0xE0 then lead.toNat % 32
  else if lead.toNat < 0xF0 then lead.toNat % 16
  else lead.toNat % 8

def codePoint (unit : Utf8Unit) : Nat :=
  unit.tail.foldl (fun bits byte => bits * 64 + byte.toNat % 64) (leadBits unit.lead)

def char (unit : Utf8Unit) : Char :=
  if unit.wellFormed then Char.ofNat unit.codePoint else '\uFFFD'

/-- The bytes of the unit in the decoded text: its own, or those of the replacement. -/
def size (unit : Utf8Unit) : Nat := if unit.wellFormed then unit.tail.length + 1 else 3

/-- The second byte, if there is one, is one that the leading byte admits. -/
def Admitted (unit : Utf8Unit) : Prop :=
  ∀ second ∈ unit.tail.head?, admitsSecond unit.lead second = true

end Utf8Unit

/-- The unit at the front. -/
def nextUnit (lead : UInt8) (rest : List UInt8) : Utf8Unit where
  lead := lead
  tail := tailBytes (utf8CharWidth lead - 1) (admitsSecond lead) rest

def utf8Units : List UInt8 → List Utf8Unit
  | [] => []
  | lead :: rest =>
      nextUnit lead rest :: utf8Units (rest.drop (nextUnit lead rest).tail.length)
termination_by bytes => bytes.length
decreasing_by
  rw [List.length_drop, List.length_cons]
  omega

def fromUtf8Lossy (bytes : List UInt8) : Str := (utf8Units bytes).map Utf8Unit.char

/-! ## Sizes -/

theorem nextUnit_admitted (lead : UInt8) (rest : List UInt8) :
    (nextUnit lead rest).Admitted := by
  unfold Utf8Unit.Admitted nextUnit
  cases utf8CharWidth lead - 1 with
  | zero => simp [tailBytes]
  | succ n =>
      cases rest with
      | nil => simp [tailBytes]
      | cons second rest =>
          simp only [tailBytes]
          split
          next hsecond => simpa using hsecond
          next => simp

theorem utf8Size_ofNat {n : Nat} (h : n.isValidChar) : (Char.ofNat n).utf8Size =
    if n ≤ 0x7F then 1 else if n ≤ 0x7FF then 2 else if n ≤ 0xFFFF then 3 else 4 := by
  have hval : (Char.ofNat n).val.toNat = n := toNat_char_ofNat h
  unfold Char.utf8Size
  simp only [UInt32.le_iff_toNat_le, hval]
  rfl

theorem utf8Size_one {n : Nat} (h : n ≤ 0x7F) : (Char.ofNat n).utf8Size = 1 := by
  rw [utf8Size_ofNat (.inl (by omega)), if_pos h]

theorem utf8Size_two {n : Nat} (hlow : 0x80 ≤ n) (hhigh : n ≤ 0x7FF) :
    (Char.ofNat n).utf8Size = 2 := by
  rw [utf8Size_ofNat (.inl (by omega)), if_neg (by omega), if_pos hhigh]

theorem utf8Size_three {n : Nat} (hlow : 0x800 ≤ n) (hhigh : n ≤ 0xFFFF)
    (hscalar : n < 0xD800 ∨ 0xDFFF < n) : (Char.ofNat n).utf8Size = 3 := by
  have hvalid : n.isValidChar := by
    rcases hscalar with h | h
    · exact .inl h
    · exact .inr ⟨h, by omega⟩
  rw [utf8Size_ofNat hvalid, if_neg (by omega), if_neg (by omega), if_pos hhigh]

theorem utf8Size_four {n : Nat} (hlow : 0x10000 ≤ n) (hhigh : n ≤ 0x10FFFF) :
    (Char.ofNat n).utf8Size = 4 := by
  rw [utf8Size_ofNat (.inr ⟨by omega, by omega⟩), if_neg (by omega), if_neg (by omega),
    if_neg (by omega)]

theorem lead_of_width_one {lead : UInt8} (h : utf8CharWidth lead = 1) : lead.toNat < 0x80 := by
  unfold utf8CharWidth at h
  split_ifs at h <;> omega

theorem lead_of_width_two {lead : UInt8} (h : utf8CharWidth lead = 2) :
    0xC2 ≤ lead.toNat ∧ lead.toNat < 0xE0 := by
  unfold utf8CharWidth at h
  split_ifs at h <;> omega

theorem lead_of_width_three {lead : UInt8} (h : utf8CharWidth lead = 3) :
    0xE0 ≤ lead.toNat ∧ lead.toNat < 0xF0 := by
  unfold utf8CharWidth at h
  split_ifs at h <;> omega

theorem lead_of_width_four {lead : UInt8} (h : utf8CharWidth lead = 4) :
    0xF0 ≤ lead.toNat ∧ lead.toNat < 0xF5 := by
  unfold utf8CharWidth at h
  split_ifs at h <;> omega

theorem utf8CharWidth_le (lead : UInt8) : utf8CharWidth lead ≤ 4 := by
  unfold utf8CharWidth
  split_ifs <;> omega

/-- The second byte in arithmetic. -/
theorem admitsSecond_bounds {lead second : UInt8} (h : admitsSecond lead second = true) :
    0x80 ≤ second.toNat ∧ second.toNat ≤ 0xBF ∧
      (lead.toNat = 0xE0 → 0xA0 ≤ second.toNat) ∧ (lead.toNat = 0xED → second.toNat ≤ 0x9F) ∧
      (lead.toNat = 0xF0 → 0x90 ≤ second.toNat) ∧
        (lead.toNat = 0xF4 → second.toNat ≤ 0x8F) := by
  unfold admitsSecond isContinuation at h
  split_ifs at h <;> simp only [decide_eq_true_eq] at h <;> omega

namespace Utf8Unit

variable {unit : Utf8Unit}

/-- A complete sequence is a scalar value that takes as many bytes. -/
theorem utf8Size_wellFormed {lead : UInt8} {tail : List UInt8}
    (hsecond : ∀ second ∈ tail.head?, admitsSecond lead second = true)
    (hvalid : tail.length + 1 = utf8CharWidth lead) :
    (Char.ofNat (codePoint ⟨lead, tail⟩)).utf8Size = tail.length + 1 := by
  match tail with
  | [] =>
      have hlead := lead_of_width_one hvalid.symm
      have hbits : leadBits lead = lead.toNat := by rw [leadBits, if_pos hlead]
      show (Char.ofNat (leadBits lead)).utf8Size = 1
      rw [hbits]
      exact utf8Size_one (by omega)
  | [second] =>
      have hlead := lead_of_width_two hvalid.symm
      have hbounds := admitsSecond_bounds (hsecond second rfl)
      have hbits : leadBits lead = lead.toNat % 32 := by
        rw [leadBits, if_neg (by omega), if_pos hlead.2]
      show (Char.ofNat (leadBits lead * 64 + second.toNat % 64)).utf8Size = 2
      rw [hbits]
      exact utf8Size_two (by omega) (by omega)
  | [second, third] =>
      have hlead := lead_of_width_three hvalid.symm
      have hbounds := admitsSecond_bounds (hsecond second rfl)
      have hbits : leadBits lead = lead.toNat % 16 := by
        rw [leadBits, if_neg (by omega), if_neg (by omega), if_pos hlead.2]
      show (Char.ofNat ((leadBits lead * 64 + second.toNat % 64) * 64 +
        third.toNat % 64)).utf8Size = 3
      rw [hbits]
      exact utf8Size_three (by omega) (by omega) (by omega)
  | [second, third, fourth] =>
      have hlead := lead_of_width_four hvalid.symm
      have hbounds := admitsSecond_bounds (hsecond second rfl)
      have hbits : leadBits lead = lead.toNat % 8 := by
        rw [leadBits, if_neg (by omega), if_neg (by omega), if_neg (by omega)]
      show (Char.ofNat (((leadBits lead * 64 + second.toNat % 64) * 64 +
        third.toNat % 64) * 64 + fourth.toNat % 64)).utf8Size = 4
      rw [hbits]
      exact utf8Size_four (by omega) (by omega)
  | _ :: _ :: _ :: _ :: _ =>
      have hwidth := utf8CharWidth_le lead
      simp only [List.length_cons] at hvalid
      omega

/-- The character of a unit takes the bytes that the unit has in the text. -/
theorem utf8Size_char (h : unit.Admitted) : unit.char.utf8Size = unit.size := by
  unfold char size
  split
  next hvalid =>
    rw [wellFormed, beq_iff_eq] at hvalid
    exact utf8Size_wellFormed h hvalid
  next => rfl

end Utf8Unit

theorem utf8Units_cons (lead : UInt8) (rest : List UInt8) :
    utf8Units (lead :: rest) =
      nextUnit lead rest :: utf8Units (rest.drop (nextUnit lead rest).tail.length) := by
  rw [utf8Units]

theorem utf8Units_admitted (bytes : List UInt8) : ∀ unit ∈ utf8Units bytes, unit.Admitted := by
  induction hm : bytes.length using Nat.strongRecOn generalizing bytes with
  | ind m ih =>
      cases bytes with
      | nil => simp [utf8Units]
      | cons lead rest =>
          rw [utf8Units_cons, List.forall_mem_cons]
          refine ⟨nextUnit_admitted lead rest, ih _ ?_ _ rfl⟩
          rw [List.length_drop, ← hm, List.length_cons]
          omega

/-- The decoded text, character by character, takes the bytes of the units. -/
theorem map_utf8Size_fromUtf8Lossy (bytes : List UInt8) :
    (fromUtf8Lossy bytes).map Char.utf8Size = (utf8Units bytes).map Utf8Unit.size := by
  rw [fromUtf8Lossy, List.map_map]
  apply List.map_congr_left
  intro unit hunit
  exact Utf8Unit.utf8Size_char (utf8Units_admitted bytes unit hunit)

/-- A byte that starts no sequence is a unit by itself. -/
theorem utf8Units_replicate {byte : UInt8} (h : utf8CharWidth byte = 0) (n : Nat) :
    utf8Units (List.replicate n byte) = List.replicate n ⟨byte, []⟩ := by
  induction n with
  | zero => simp [utf8Units]
  | succ n ih =>
      have hunit : nextUnit byte (List.replicate n byte) = ⟨byte, []⟩ := by
        rw [nextUnit, h]
        rfl
      rw [List.replicate_succ, utf8Units_cons, hunit, List.length_nil, List.drop_zero, ih,
        List.replicate_succ]

end AbixioUi.Foundation
