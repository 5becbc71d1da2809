import AbixioUi.Foundation.Percent

/-! # Codes in which no word begins another

A text is coded word by word. Where no word begins another one the coded text can be
read back, so two texts have one code exactly if they are one text; and coding the code
once more keeps that. UTF-8 is such a code, and so are the percent encodings over it.
-/

namespace AbixioUi.Foundation

universe u v w

variable {α : Type u} {β : Type v} {γ : Type w}

/-- No word is empty, and none begins another. -/
structure PrefixCode (code : α → List β) : Prop where
  nonempty : ∀ a, code a ≠ []
  eq_of_prefix : ∀ a b, code a <+: code b → a = b

namespace PrefixCode

variable {code : α → List β} {outer : β → List γ}

/-- One coded text begins another exactly if the text does. -/
theorem flatMap_prefix_iff (h : PrefixCode code) {s t : List α} :
    s.flatMap code <+: t.flatMap code ↔ s <+: t := by
  constructor
  · intro hprefix
    induction s generalizing t with
    | nil => exact List.nil_prefix
    | cons a s ih =>
        rw [List.flatMap_cons] at hprefix
        cases t with
        | nil =>
            have hempty := List.prefix_nil.mp hprefix
            exact absurd (List.append_eq_nil_iff.mp hempty).1 (h.nonempty a)
        | cons b t =>
            rw [List.flatMap_cons] at hprefix
            -- two words that begin one text begin one another
            have ha : code a <+: code b ++ t.flatMap code :=
              (List.prefix_append _ _).trans hprefix
            have hb : code b <+: code b ++ t.flatMap code := List.prefix_append _ _
            have hab : a = b := by
              rcases List.prefix_or_prefix_of_prefix ha hb with hword | hword
              · exact h.eq_of_prefix a b hword
              · exact (h.eq_of_prefix b a hword).symm
            subst hab
            rw [List.prefix_append_right_inj] at hprefix
            exact (List.prefix_cons_inj a).mpr (ih hprefix)
  · rintro ⟨rest, rfl⟩
    rw [List.flatMap_append]
    exact List.prefix_append _ _

/-- A coded text can be read back. -/
theorem flatMap_inj (h : PrefixCode code) {s t : List α} :
    s.flatMap code = t.flatMap code ↔ s = t := by
  constructor
  · intro heq
    have hst : s <+: t := h.flatMap_prefix_iff.mp (heq ▸ List.prefix_refl _)
    have hts : t <+: s := h.flatMap_prefix_iff.mp (heq ▸ List.prefix_refl _)
    exact hst.eq_of_length (le_antisymm hst.length_le hts.length_le)
  · intro heq
    rw [heq]

/-- The words of one code, coded in another. -/
theorem comp (h : PrefixCode code) (houter : PrefixCode outer) :
    PrefixCode fun a => (code a).flatMap outer where
  nonempty a hempty := by
    cases hcode : code a with
    | nil => exact h.nonempty a hcode
    | cons b rest =>
        rw [hcode, List.flatMap_cons] at hempty
        exact houter.nonempty b (List.append_eq_nil_iff.mp hempty).1
  eq_of_prefix a b hprefix := h.eq_of_prefix a b (houter.flatMap_prefix_iff.mp hprefix)

end PrefixCode

/-! ## UTF-8 and the form encoding -/

theorem prefixCode_utf8 : PrefixCode String.utf8EncodeChar where
  nonempty _ := String.utf8EncodeChar_ne_nil
  eq_of_prefix c d hprefix := by
    obtain ⟨rest, hrest⟩ := hprefix
    have hc : ((String.utf8EncodeChar c).toByteArray ++ rest.toByteArray).utf8DecodeChar? 0 =
        some c := ByteArray.utf8DecodeChar?_utf8EncodeChar_append
    have hd : ((String.utf8EncodeChar d).toByteArray ++
        ([] : List UInt8).toByteArray).utf8DecodeChar? 0 = some d := ByteArray.utf8DecodeChar?_utf8EncodeChar_append
    rw [← List.toByteArray_append] at hc hd
    rw [List.append_nil, ← hrest, hc] at hd
    exact Option.some.inj hd

/-- The byte that a form encoded word stands for. -/
def formDecode : Str → Nat
  | ['+'] => 0x20
  | [c] => c.toNat
  | [_, high, low] => 16 * hexValue high + hexValue low
  | _ => 0
where
  hexValue (digit : Char) : Nat :=
    if digit.toNat < 65 then digit.toNat - 48 else digit.toNat - 55

theorem hexValue_hexDigit : ∀ n < 16, formDecode.hexValue (hexDigit n) = n := by decide

/-- A word is one character other than the percent sign, or the sign and two digits. -/
theorem formByte_cases (byte : UInt8) :
    (∃ c, formByte byte = [c] ∧ c ≠ '%' ∧ formDecode [c] = byte.toNat) ∨
      formByte byte = percentByte byte := by
  unfold formByte
  split_ifs with hspace hkept
  · exact .inl ⟨'+', rfl, by decide, by rw [hspace]; rfl⟩
  · left
    refine ⟨Char.ofNat byte.toNat, rfl, ?_, ?_⟩
    · intro hpercent
      have hcode := congrArg Char.toNat hpercent
      rw [toNat_ofNat_byte] at hcode
      have hbyte : byte = 37 := UInt8.toNat_inj.mp hcode
      rw [hbyte] at hkept
      exact absurd hkept (by decide)
    · have hplus : Char.ofNat byte.toNat ≠ '+' := by
        intro hplus
        have hcode := congrArg Char.toNat hplus
        rw [toNat_ofNat_byte] at hcode
        have hbyte : byte = 43 := UInt8.toNat_inj.mp hcode
        rw [hbyte] at hkept
        exact absurd hkept (by decide)
      unfold formDecode
      split
      next heq => exact absurd (List.cons.inj heq).1 hplus
      next heq =>
        rw [← (List.cons.inj heq).1]
        exact toNat_ofNat_byte byte
      next heq => cases heq
      next _ hone _ => exact absurd rfl (hone _)
  · exact .inr rfl

theorem formDecode_formByte (byte : UInt8) : formDecode (formByte byte) = byte.toNat := by
  rcases formByte_cases byte with ⟨c, hword, -, hdecode⟩ | hword
  · rw [hword, hdecode]
  · have hbound := UInt8.toNat_lt byte
    have hhigh := hexValue_hexDigit (byte.toNat / 16) (by omega)
    have hlow := hexValue_hexDigit (byte.toNat % 16) (by omega)
    rw [hword]
    show 16 * formDecode.hexValue (hexDigit (byte.toNat / 16)) +
      formDecode.hexValue (hexDigit (byte.toNat % 16)) = byte.toNat
    rw [hhigh, hlow]
    omega

theorem prefixCode_formByte : PrefixCode formByte where
  nonempty byte hempty := by
    rcases formByte_cases byte with ⟨c, hword, -⟩ | hword
    · rw [hword] at hempty
      cases hempty
    · rw [hword] at hempty
      cases hempty
  eq_of_prefix a b hprefix := by
    suffices hword : formByte a = formByte b by
      have hcode := congrArg formDecode hword
      rw [formDecode_formByte, formDecode_formByte] at hcode
      exact UInt8.toNat_inj.mp hcode
    apply hprefix.eq_of_length
    -- words of different lengths start differently
    rcases formByte_cases a with ⟨c, ha, hc, -⟩ | ha
    · rcases formByte_cases b with ⟨d, hb, -⟩ | hb
      · rw [ha, hb]
        rfl
      · rw [ha, hb] at hprefix
        exact absurd (List.cons_prefix_cons.mp hprefix).1 hc
    · rcases formByte_cases b with ⟨d, hb, -⟩ | hb
      · have hlength := hprefix.length_le
        rw [ha, hb] at hlength
        exact absurd hlength (show ¬ 3 ≤ 1 by decide)
      · rw [ha, hb]
        rfl

/-- A form encoded text can be read back. -/
theorem formEncode_inj {s t : Str} : formEncode s = formEncode t ↔ s = t :=
  (prefixCode_utf8.comp prefixCode_formByte).flatMap_inj

end AbixioUi.Foundation
