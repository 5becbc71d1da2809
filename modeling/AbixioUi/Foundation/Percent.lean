import AbixioUi.Foundation.Text
import Mathlib.Data.List.Sort

/-! # Percent encodings of text

A text is encoded byte by byte in UTF-8. The form encoding and the encoding that request
signatures are defined over keep different bytes: they agree on a text exactly when it
has no space, asterisk or tilde.
-/

namespace AbixioUi.Foundation

/-! ## Encodings of a byte -/

def hexDigit (n : Nat) : Char := if n < 10 then Char.ofNat (48 + n) else Char.ofNat (55 + n)

def percentByte (byte : UInt8) : Str :=
  ['%', hexDigit (byte.toNat / 16), hexDigit (byte.toNat % 16)]

def isAlphanumericByte (byte : UInt8) : Bool :=
  decide (48 ≤ byte.toNat ∧ byte.toNat ≤ 57 ∨ 65 ≤ byte.toNat ∧ byte.toNat ≤ 90 ∨
    97 ≤ byte.toNat ∧ byte.toNat ≤ 122)

/-- Form encoding: a space is a plus; letters, digits and `*-._` are kept. -/
def formByte (byte : UInt8) : Str :=
  if byte = 0x20 then ['+']
  else if isAlphanumericByte byte ∨ byte = 0x2A ∨ byte = 0x2D ∨ byte = 0x2E ∨ byte = 0x5F then
    [Char.ofNat byte.toNat]
  else percentByte byte

/-- Encoding for signatures: letters, digits and `-._~` are kept. -/
def signatureByte (byte : UInt8) : Str :=
  if isAlphanumericByte byte ∨ byte = 0x2D ∨ byte = 0x2E ∨ byte = 0x5F ∨ byte = 0x7E then
    [Char.ofNat byte.toNat]
  else percentByte byte

theorem formByte_eq_signatureByte (byte : UInt8) :
    byte = 0x20 ∨ byte = 0x2A ∨ byte = 0x7E ∨ formByte byte = signatureByte byte := by
  by_cases hspace : byte = 0x20
  · exact .inl hspace
  by_cases hasterisk : byte = 0x2A
  · exact .inr (.inl hasterisk)
  by_cases htilde : byte = 0x7E
  · exact .inr (.inr (.inl htilde))
  · simp only [formByte, signatureByte, hspace, hasterisk, htilde, if_false, false_or, or_false,
      or_true]

theorem toNat_hexDigit : ∀ n < 16, 48 ≤ (hexDigit n).toNat ∧ (hexDigit n).toNat ≤ 57 ∨
    65 ≤ (hexDigit n).toNat ∧ (hexDigit n).toNat ≤ 70 := by
  decide

/-- A percent sign and two digits. -/
theorem toNat_of_mem_percentByte {byte : UInt8} {x : Char} (h : x ∈ percentByte byte) :
    x.toNat = 37 ∨ 48 ≤ x.toNat ∧ x.toNat ≤ 57 ∨ 65 ≤ x.toNat ∧ x.toNat ≤ 70 := by
  have hbound := UInt8.toNat_lt byte
  simp only [percentByte, List.mem_cons, List.not_mem_nil, or_false] at h
  rcases h with h | h | h
  · rw [h]
    exact .inl rfl
  · rw [h]
    exact .inr (toNat_hexDigit _ (by omega))
  · rw [h]
    exact .inr (toNat_hexDigit _ (by omega))

/-- A byte that is kept is the code of its character. -/
theorem toNat_ofNat_byte (byte : UInt8) : (Char.ofNat byte.toNat).toNat = byte.toNat := by
  have hbound := UInt8.toNat_lt byte
  exact toNat_char_ofNat (.inl (by omega))

/-- The form encoding never has a tilde, and has a separator or a blank for no byte. -/
theorem formByte_chars (byte : UInt8) :
    ∀ x ∈ formByte byte, x ≠ '~' ∧ x ≠ '&' ∧ x ≠ '#' ∧ x ≠ '\t' ∧ x ≠ '\n' ∧ x ≠ '\r' := by
  intro x hx
  have hcode : x.toNat ≠ 126 ∧ x.toNat ≠ 38 ∧ x.toNat ≠ 35 ∧ 13 < x.toNat := by
    unfold formByte at hx
    split_ifs at hx with hspace hkept
    · rw [List.mem_singleton.mp hx]
      decide
    · rw [List.mem_singleton.mp hx, toNat_ofNat_byte]
      rcases hkept with hkept | rfl | rfl | rfl | rfl
      · have hkept := of_decide_eq_true hkept
        omega
      all_goals decide
    · have hdigit := toNat_of_mem_percentByte hx
      omega
  refine ⟨?_, ?_, ?_, ?_, ?_, ?_⟩ <;>
    · rintro rfl
      exact absurd hcode (by decide)

theorem signatureByte_chars (byte : UInt8) :
    ∀ x ∈ signatureByte byte, x ≠ '+' ∧ x ≠ '*' ∧ x ≠ '&' := by
  intro x hx
  have hcode : x.toNat ≠ 43 ∧ x.toNat ≠ 42 ∧ x.toNat ≠ 38 := by
    unfold signatureByte at hx
    split_ifs at hx with hkept
    · rw [List.mem_singleton.mp hx, toNat_ofNat_byte]
      rcases hkept with hkept | rfl | rfl | rfl | rfl
      · have hkept := of_decide_eq_true hkept
        omega
      all_goals decide
    · have hdigit := toNat_of_mem_percentByte hx
      omega
  refine ⟨?_, ?_, ?_⟩ <;>
    · rintro rfl
      exact absurd hcode (by decide)

/-! ## Encodings of a text -/

def percentEncode (encodeByte : UInt8 → Str) (s : Str) : Str :=
  s.flatMap fun c => (String.utf8EncodeChar c).flatMap encodeByte

theorem mem_percentEncode {encodeByte : UInt8 → Str} {s : Str} {x : Char} :
    x ∈ percentEncode encodeByte s ↔
      ∃ c ∈ s, ∃ byte ∈ String.utf8EncodeChar c, x ∈ encodeByte byte := by
  simp only [percentEncode, List.mem_flatMap]

/-- An ASCII byte is its own character. -/
theorem eq_of_mem_utf8EncodeChar {c : Char} {byte : UInt8}
    (h : byte ∈ String.utf8EncodeChar c) (hascii : byte.toNat < 0x80) :
    c.toNat = byte.toNat := by
  have hnat : ∀ n, (UInt8.ofNat n).toNat = n % 256 := fun n => UInt8.toNat_ofNat'
  simp only [String.utf8EncodeChar] at h
  show c.val.toNat = byte.toNat
  split_ifs at h
  · rw [List.mem_singleton] at h
    rw [h, hnat]
    omega
  -- every byte of a longer sequence is at least 0x80
  · simp only [List.mem_cons, List.not_mem_nil, or_false] at h
    rcases h with h | h <;> rw [h, hnat] at hascii <;> omega
  · simp only [List.mem_cons, List.not_mem_nil, or_false] at h
    rcases h with h | h | h <;> rw [h, hnat] at hascii <;> omega
  · simp only [List.mem_cons, List.not_mem_nil, or_false] at h
    rcases h with h | h | h | h <;> rw [h, hnat] at hascii <;> omega

/-- No character of the text is encoded differently. -/
def SameEncoding (s : Str) : Prop := ∀ c ∈ s, c ≠ ' ' ∧ c ≠ '*' ∧ c ≠ '~'

instance (s : Str) : Decidable (SameEncoding s) := List.decidableBAll _ s

def formEncode (s : Str) : Str := percentEncode formByte s

def signatureEncode (s : Str) : Str := percentEncode signatureByte s

theorem formEncode_eq_signatureEncode {s : Str} (h : SameEncoding s) :
    formEncode s = signatureEncode s := by
  apply List.flatMap_congr
  intro c hc
  apply List.flatMap_congr
  intro byte hbyte
  obtain ⟨hspace, hasterisk, htilde⟩ := h c hc
  have hchar : ∀ x : Char, x.toNat < 0x80 → c ≠ x → byte.toNat ≠ x.toNat := by
    intro x hx hne heq
    have hnat := eq_of_mem_utf8EncodeChar hbyte (by omega)
    exact hne (Char.toNat_inj.mp (hnat.trans heq))
  rcases formByte_eq_signatureByte byte with h | h | h | h
  · exact absurd (by rw [h]; rfl) (hchar ' ' (by decide) hspace)
  · exact absurd (by rw [h]; rfl) (hchar '*' (by decide) hasterisk)
  · exact absurd (by rw [h]; rfl) (hchar '~' (by decide) htilde)
  · exact h

theorem form_chars (s : Str) :
    ∀ x ∈ formEncode s, x ≠ '~' ∧ x ≠ '&' ∧ x ≠ '#' ∧ x ≠ '\t' ∧ x ≠ '\n' ∧ x ≠ '\r' := by
  intro x hx
  obtain ⟨c, -, byte, -, hbyte⟩ := mem_percentEncode.mp hx
  exact formByte_chars byte x hbyte

theorem signature_chars (s : Str) : ∀ x ∈ signatureEncode s, x ≠ '+' ∧ x ≠ '*' ∧ x ≠ '&' := by
  intro x hx
  obtain ⟨c, -, byte, -, hbyte⟩ := mem_percentEncode.mp hx
  exact signatureByte_chars byte x hbyte

/-- Any other text shows a character that only one of the encodings has. -/
theorem encoding_differs {s : Str} (h : ¬ SameEncoding s) :
    '+' ∈ formEncode s ∨ '*' ∈ formEncode s ∨ '~' ∈ signatureEncode s := by
  unfold SameEncoding at h
  push Not at h
  obtain ⟨c, hc, hspecial⟩ := h
  by_cases hspace : c = ' '
  · subst hspace
    exact .inl (mem_percentEncode.mpr ⟨' ', hc, 0x20, by decide, by decide⟩)
  · by_cases hasterisk : c = '*'
    · subst hasterisk
      exact .inr (.inl (mem_percentEncode.mpr ⟨'*', hc, 0x2A, by decide, by decide⟩))
    · have htilde := hspecial hspace hasterisk
      subst htilde
      exact .inr (.inr (mem_percentEncode.mpr ⟨'~', hc, 0x7E, by decide, by decide⟩))

end AbixioUi.Foundation
