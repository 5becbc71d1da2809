import AbixioUi.Foundation.Path

/-! # Names after lossy decoding

Decoding replaces what is not well-formed Unicode by the replacement character. A file name
stays a file name, and it stays the same name exactly if it was Unicode.
-/

namespace AbixioUi.Foundation

variable {platform : Platform}

theorem lossy_eq_iff {unit : OsUnit} {c : Char} (h : c ≠ '\uFFFD') :
    unit.lossy = c ↔ unit = .char c := by
  cases unit with
  | char d => simp [OsUnit.lossy]
  | illFormed raw => simpa [OsUnit.lossy] using h.symm

theorem isSeparator_replacement (platform : Platform) :
    platform.isSeparator '\uFFFD' = false := by
  cases platform <;> decide

/-- Lossy decoding makes a file name of a file name. -/
theorem IsFileName.lossy {name : OsString} (h : IsFileName platform name) :
    IsFileName platform (OsString.ofStr (toStringLossy name)) := by
  have hchar : ∀ c, .char c ∈ OsString.ofStr (toStringLossy name) → c = '\uFFFD' ∨
      .char c ∈ name := by
    intro c hc
    obtain ⟨d, hd, hdc⟩ := List.mem_map.mp hc
    obtain rfl : d = c := OsUnit.char.inj hdc
    obtain ⟨unit, hunit, hlossy⟩ := List.mem_map.mp hd
    by_cases hreplaced : d = '\uFFFD'
    · exact .inl hreplaced
    · rw [lossy_eq_iff hreplaced] at hlossy
      exact .inr (hlossy ▸ hunit)
  have hdots : ∀ dots : Str, '\uFFFD' ∉ dots → name ≠ OsString.ofStr dots →
      OsString.ofStr (toStringLossy name) ≠ OsString.ofStr dots := by
    intro dots hnot hne heq
    have hlossy := ofStr_injective heq
    refine hne ?_
    clear hne heq h hchar
    induction name generalizing dots with
    | nil =>
        have hnil : dots = [] := by simpa [toStringLossy] using hlossy.symm
        rw [hnil]
        rfl
    | cons unit name ih =>
        obtain ⟨c, dots, rfl⟩ := List.exists_cons_of_ne_nil (l := dots) fun hnil => by
          simp [toStringLossy, hnil] at hlossy
        obtain ⟨hc, hrest⟩ := List.cons.inj hlossy
        have hne : c ≠ '\uFFFD' := fun heq => hnot (heq ▸ List.mem_cons_self)
        rw [(lossy_eq_iff hne).mp hc,
          ih dots (fun hmem => hnot (List.mem_cons_of_mem _ hmem)) hrest]
        rfl
  refine ⟨?_, hdots _ (by decide) h.not_dot, hdots _ (by decide) h.not_dotdot, ?_, ?_⟩
  · intro hnil
    exact h.nonempty (by simpa [OsString.ofStr, toStringLossy] using hnil)
  · intro c hc
    rcases hchar c hc with rfl | hmem
    · exact isSeparator_replacement platform
    · exact h.no_sep c hmem
  · intro hwindows hcolon
    rcases hchar ':' hcolon with hreplaced | hmem
    · exact absurd hreplaced (by decide)
    · exact h.no_colon hwindows hmem

/-- No name holds a slash, also after decoding. -/
theorem slash_not_mem_lossy {name : OsString} (h : IsFileName platform name) :
    '/' ∉ toStringLossy name := by
  intro hslash
  obtain ⟨unit, hunit, hlossy⟩ := List.mem_map.mp hslash
  rw [lossy_eq_iff (by decide)] at hlossy
  have hsep := h.no_sep '/' (hlossy ▸ hunit)
  cases platform <;> simp [Platform.isSeparator] at hsep

theorem eq_ofStr_iff {name : OsString} :
    name = OsString.ofStr (toStringLossy name) ↔ ∃ s : Str, name = OsString.ofStr s := by
  constructor
  · exact fun h => ⟨_, h⟩
  · rintro ⟨s, rfl⟩
    rw [toStringLossy_ofStr]

end AbixioUi.Foundation
