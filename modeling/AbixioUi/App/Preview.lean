import AbixioUi.Foundation.Utf8
import AbixioUi.Glob.Slices

/-! # The preview of an object

The first bytes of an object are decoded and stored. The detail view shortens a long
preview to its first bytes, and slicing panics inside a character.
-/

namespace AbixioUi

open Foundation

def cmdFetchPreview (data : Except String (List UInt8)) : Except String Str :=
  data.map fun data => fromUtf8Lossy (data.take 4096)

/-- The slice up to byte `n`; `none` is the panic off a character boundary. -/
def sliceTo : Str → Nat → Option Str
  | _, 0 => some []
  | [], _ + 1 => none
  | c :: s, n + 1 =>
      if c.utf8Size ≤ n + 1 then (sliceTo s (n + 1 - c.utf8Size)).map (c :: ·) else none

/-- What the detail view shows of the stored preview, if anything. -/
def previewText : Option (Except String Str) → Option (Option Str)
  | some (.ok preview) =>
      if preview ≠ [] then
        if 500 < utf8Len preview then
          (sliceTo preview 500).map fun front => some (front ++ "...".toList)
        else some (some preview)
      else some none
  | some (.error _) | none => some none

/-- A slice is taken exactly at the end of some first characters. -/
theorem sliceTo_isSome_iff (s : Str) (n : Nat) :
    (sliceTo s n).isSome ↔ ∃ k, ((s.map Char.utf8Size).take k).sum = n := by
  induction s generalizing n with
  | nil =>
      cases n with
      | zero => simp [sliceTo]
      | succ n => simp [sliceTo]
  | cons c s ih =>
      have hpos := Char.utf8Size_pos c
      cases n with
      | zero => exact iff_of_true rfl ⟨0, rfl⟩
      | succ n =>
          have hcons : (∃ k, (((c :: s).map Char.utf8Size).take k).sum = n + 1) ↔
              ∃ k, c.utf8Size + ((s.map Char.utf8Size).take k).sum = n + 1 := by
            constructor
            · rintro ⟨k, hk⟩
              cases k with
              | zero => cases hk
              | succ k => exact ⟨k, by simpa using hk⟩
            · rintro ⟨k, hk⟩
              exact ⟨k + 1, by simpa using hk⟩
          rw [hcons, sliceTo]
          split
          next hle =>
            rw [Option.isSome_map, ih]
            apply exists_congr
            intro k
            omega
          next hlt =>
            constructor
            · intro h
              cases h
            · rintro ⟨k, hk⟩
              omega

theorem previewText_isSome_iff (preview : Str) :
    (previewText (some (.ok preview))).isSome ↔
      utf8Len preview ≤ 500 ∨ ∃ k, ((preview.map Char.utf8Size).take k).sum = 500 := by
  rw [previewText]
  by_cases hlong : 500 < utf8Len preview
  · have hne : preview ≠ [] := by
      intro hnil
      rw [hnil] at hlong
      cases hlong
    rw [if_pos hne, if_pos hlong, Option.isSome_map, sliceTo_isSome_iff]
    constructor
    · exact .inr
    · rintro (hshort | hboundary)
      · exact absurd hshort (Nat.not_le_of_lt hlong)
      · exact hboundary
  · apply iff_of_true
    · rw [if_neg hlong]
      split <;> rfl
    · exact .inl (Nat.le_of_not_lt hlong)

/-- Showing the preview of an object does not panic exactly if the units of its first
bytes come to at most 500 bytes of text, or some first of them to exactly 500. -/
theorem preview_shown_iff (content : List UInt8) :
    (previewText (some (cmdFetchPreview (.ok content)))).isSome ↔
      let sizes := (utf8Units (content.take 4096)).map Utf8Unit.size
      sizes.sum ≤ 500 ∨ ∃ k, (sizes.take k).sum = 500 := by
  simp only [← map_utf8Size_fromUtf8Lossy]
  exact previewText_isSome_iff (fromUtf8Lossy (content.take 4096))

/-- An object of 167 bytes that start no sequence: byte 500 of its preview is inside the
last replacement character. -/
theorem preview_of_binary_panics :
    ¬ (previewText (some (cmdFetchPreview (.ok (List.replicate 167 0xFF))))).isSome := by
  have hsizes : (fromUtf8Lossy ((List.replicate 167 0xFF).take 4096)).map Char.utf8Size =
      List.replicate 167 3 := by
    rw [map_utf8Size_fromUtf8Lossy, List.take_replicate, utf8Units_replicate (by decide),
      List.map_replicate]
    rfl
  have hshown := previewText_isSome_iff (fromUtf8Lossy ((List.replicate 167 0xFF).take 4096))
  rw [utf8Len, hsizes, List.sum_replicate_nat] at hshown
  intro hsome
  rcases hshown.mp hsome with hshort | ⟨k, hk⟩
  · exact absurd hshort (by decide)
  · rw [List.take_replicate, List.sum_replicate_nat] at hk
    omega

end AbixioUi
