import AbixioUi.Sync.Validation

/-! # What an age filter accepts

An age is summed up in 64-bit seconds and taken from the clock reading. Neither the sum
nor the date that comes out is checked on the way, so the ages that are too long for them
are the texts on which the filter goes wrong.
-/

namespace AbixioUi

open Foundation

/-! ## Ages -/

/-- An age whose numbers can all be read. -/
inductive IsReadableAge : Str → Int → Prop
  | last {digits : Str} {unit : Char} {factor : Int} :
      IsDigits digits → digitsValue digits < 2 ^ 63 → ageUnitSeconds unit = some factor →
      IsReadableAge (digits ++ [unit]) (digitsValue digits * factor)
  | segment {digits rest : Str} {unit : Char} {factor seconds : Int} :
      IsDigits digits → digitsValue digits < 2 ^ 63 → ageUnitSeconds unit = some factor →
      IsReadableAge rest seconds →
      IsReadableAge (digits ++ unit :: rest) (digitsValue digits * factor + seconds)

/-- The seconds overflow: the text begins with an age that is too long for them, although
each of its numbers can be read. -/
def Overflows (text : Str) : Prop :=
  ∃ front seconds, front <+: text ∧ IsReadableAge front seconds ∧ 2 ^ 63 ≤ seconds

/-- A leading age splits at the first character that is not a digit. -/
theorem leading_age_split {digits rest : Str} {unit : Char} {seconds : Int}
    (hdigits : ∀ c ∈ digits, c.isDigit = true) (hunit : unit.isDigit = false) :
    (∃ front, front <+: digits ++ unit :: rest ∧ IsReadableAge front seconds) ↔
      digits ≠ [] ∧ digitsValue digits < 2 ^ 63 ∧ ∃ factor, ageUnitSeconds unit = some factor ∧
        (seconds = digitsValue digits * factor ∨
          ∃ front more, front <+: rest ∧ IsReadableAge front more ∧
            seconds = digitsValue digits * factor + more) := by
  constructor
  · rintro ⟨front, ⟨tail, htext⟩, hage⟩
    cases hage with
    | @last digits' unit' factor hd hlt hu =>
        rw [List.append_assoc, List.singleton_append] at htext
        obtain ⟨rfl, rfl, -⟩ :=
          digits_append_inj hd.2 hdigits (ageUnitSeconds_not_digit hu) hunit htext
        exact ⟨hd.1, hlt, factor, hu, .inl rfl⟩
    | @segment digits' rest' unit' factor more hd hlt hu hrest =>
        rw [List.append_assoc, List.cons_append] at htext
        obtain ⟨rfl, rfl, hrests⟩ :=
          digits_append_inj hd.2 hdigits (ageUnitSeconds_not_digit hu) hunit htext
        exact ⟨hd.1, hlt, factor, hu, .inr ⟨rest', more, ⟨tail, hrests⟩, hrest, rfl⟩⟩
  · rintro ⟨hne, hlt, factor, hfactor, rfl | ⟨front, more, ⟨tail, htail⟩, hage, rfl⟩⟩
    · refine ⟨digits ++ [unit], ⟨rest, ?_⟩, .last ⟨hne, hdigits⟩ hlt hfactor⟩
      rw [List.append_assoc, List.singleton_append]
    · refine ⟨digits ++ unit :: front, ⟨tail, ?_⟩, .segment ⟨hne, hdigits⟩ hlt hfactor hage⟩
      rw [List.append_assoc, List.cons_append, htail]

/-- Digits alone begin with no age. -/
theorem not_leading_age_digits {digits front : Str} {seconds : Int}
    (hdigits : ∀ c ∈ digits, c.isDigit = true) (hfront : front <+: digits) :
    ¬ IsReadableAge front seconds := by
  intro hage
  cases hage with
  | last _ _ hunit | segment _ _ hunit _ =>
      have hdigit := hdigits _ (hfront.subset (List.mem_append_right _ List.mem_cons_self))
      rw [ageUnitSeconds_not_digit hunit] at hdigit
      cases hdigit

/-! ## The loop -/

/-- The loop overflows exactly if an age that it meets first is too long for the seconds
that are left. -/
theorem parseAgeSegments_eq_none {rest numBuf : Str} {total : Int} {found : Bool}
    (hdigits : ∀ c ∈ numBuf, c.isDigit = true) (htotal : 0 ≤ total) (hfits : total < 2 ^ 63) :
    parseAgeSegments rest numBuf total found = none ↔
      ∃ front seconds, front <+: numBuf ++ rest ∧ IsReadableAge front seconds ∧
        2 ^ 63 ≤ total + seconds := by
  induction rest generalizing numBuf total found with
  | nil =>
      refine iff_of_false (by simp [parseAgeSegments]) ?_
      rintro ⟨front, seconds, hfront, hage, -⟩
      rw [List.append_nil] at hfront
      exact not_leading_age_digits hdigits hfront hage
  | cons ch rest ih =>
      by_cases hch : ch.isDigit = true
      · have hmore : ∀ c ∈ numBuf ++ [ch], c.isDigit = true := by
          intro c hc
          rcases List.mem_append.mp hc with hc | hc
          · exact hdigits c hc
          · rwa [List.mem_singleton.mp hc]
        rw [parseAgeSegments, if_pos hch, ih hmore htotal hfits]
        simp
      · rw [Bool.not_eq_true] at hch
        cases hunit : ageUnitSeconds ch with
        | none =>
            refine iff_of_false ?_ ?_
            · rw [parseAgeSegments, hch, hunit]
              simp only [Bool.false_eq_true, if_false]
              cases parseUnsigned 63 numBuf <;> simp
            · rintro ⟨front, seconds, hfront, hage, -⟩
              obtain ⟨-, -, factor, hfactor, -⟩ :=
                (leading_age_split hdigits hch).mp ⟨front, hfront, hage⟩
              rw [hunit] at hfactor
              cases hfactor
        | some factor =>
            have hsum : (0 : Int) ≤ total + digitsValue numBuf * factor :=
              Int.add_nonneg htotal
                (Int.mul_nonneg (Int.natCast_nonneg _) (ageUnitSeconds_pos hunit).le)
            rw [parseAgeSegments_at_unit hdigits htotal hunit]
            by_cases hread : numBuf ≠ [] ∧ digitsValue numBuf < 2 ^ 63
            · rw [if_pos hread]
              by_cases hlt : total + digitsValue numBuf * factor < 2 ^ 63
              · rw [if_pos hlt, ih (by simp) hsum hlt]
                constructor
                · rintro ⟨front, more, hfront, hage, hlong⟩
                  obtain ⟨whole, hwhole, hages⟩ := (leading_age_split hdigits hch).mpr
                    ⟨hread.1, hread.2, factor, hunit, .inr ⟨front, more, hfront, hage, rfl⟩⟩
                  exact ⟨whole, _, hwhole, hages, by omega⟩
                · rintro ⟨whole, seconds, hwhole, hages, hlong⟩
                  obtain ⟨-, -, factor', hfactor, hseconds⟩ :=
                    (leading_age_split hdigits hch).mp ⟨whole, hwhole, hages⟩
                  obtain rfl : factor = factor' := Option.some.inj (hunit.symm.trans hfactor)
                  rcases hseconds with rfl | ⟨front, more, hfront, hage, rfl⟩
                  · omega
                  · exact ⟨front, more, hfront, hage, by omega⟩
              · rw [if_neg hlt]
                refine iff_of_true rfl ?_
                obtain ⟨front, hfront, hage⟩ :=
                  (@leading_age_split numBuf rest ch _ hdigits hch).mpr
                    ⟨hread.1, hread.2, factor, hunit, .inl rfl⟩
                exact ⟨front, _, hfront, hage, by omega⟩
            · rw [if_neg hread]
              refine iff_of_false (Option.some_ne_none _) ?_
              rintro ⟨whole, seconds, hwhole, hages, -⟩
              obtain ⟨hne, hlt, -⟩ := (leading_age_split hdigits hch).mp ⟨whole, hwhole, hages⟩
              exact hread ⟨hne, hlt⟩

/-! ## The texts of ages -/

section

variable {a b text : Str} {seconds more : Int}

theorem IsAge.mem {c : Char} (h : IsAge text seconds) (hc : c ∈ text) :
    c.isDigit = true ∨ ∃ factor, ageUnitSeconds c = some factor := by
  induction h with
  | last hdigits hunit =>
      rcases List.mem_append.mp hc with hdigit | hlast
      · exact .inl (hdigits.2 c hdigit)
      · rw [List.mem_singleton.mp hlast]
        exact .inr ⟨_, hunit⟩
  | segment hdigits hunit _ ih =>
      rcases List.mem_append.mp hc with hdigit | hrest
      · exact .inl (hdigits.2 c hdigit)
      · rcases List.mem_cons.mp hrest with hhere | hlater
        · rw [hhere]
          exact .inr ⟨_, hunit⟩
        · exact ih hlater

theorem isWhitespace_of_unit {c : Char} {factor : Int} (h : ageUnitSeconds c = some factor) :
    isWhitespace c = false := by
  unfold ageUnitSeconds at h
  split at h <;> first | rfl | cases h

theorem IsAge.trim_eq (h : IsAge text seconds) : trim text = text := by
  apply trim_of_no_whitespace
  intro c hc
  rcases h.mem hc with hdigit | ⟨factor, hunit⟩
  · exact isWhitespace_of_isDigit hdigit
  · exact isWhitespace_of_unit hunit

theorem IsAge.no_hyphen (h : IsAge text seconds) : '-' ∉ text := by
  intro hc
  rcases h.mem hc with hdigit | ⟨factor, hunit⟩
  · exact absurd hdigit (by decide)
  · cases hunit

theorem IsAge.ne_nil (h : IsAge text seconds) : text ≠ [] := by
  cases h with
  | last _ _ => exact List.append_ne_nil_of_right_ne_nil _ (List.cons_ne_nil _ _)
  | segment _ _ _ => exact List.append_ne_nil_of_right_ne_nil _ (List.cons_ne_nil _ _)

/-- Ages put together are an age of their seconds together. -/
theorem IsAge.append (ha : IsAge a seconds) (hb : IsAge b more) :
    IsAge (a ++ b) (seconds + more) := by
  induction ha with
  | last hdigits hunit =>
      rw [List.append_assoc, List.singleton_append]
      exact .segment hdigits hunit hb
  | segment hdigits hunit _ ih =>
      rw [List.append_assoc, List.cons_append, Int.add_assoc]
      exact .segment hdigits hunit ih

/-- A text is an age of one number of seconds. -/
theorem IsAge.unique (h : IsAge text seconds) (h' : IsAge text more) : seconds = more := by
  induction h generalizing more with
  | @last digits unit factor hdigits hunit =>
      obtain ⟨-, factor', hfactor, hseconds⟩ :=
        (isAge_split hdigits.2 (ageUnitSeconds_not_digit hunit)).mp h'
      obtain rfl : factor = factor' := Option.some.inj (hunit.symm.trans hfactor)
      rcases hseconds with ⟨-, rfl⟩ | ⟨rest, hrest, -⟩
      · rfl
      · exact absurd rfl hrest.ne_nil
  | @segment digits rest unit factor seconds hdigits hunit hrest ih =>
      obtain ⟨-, factor', hfactor, hseconds⟩ :=
        (isAge_split hdigits.2 (ageUnitSeconds_not_digit hunit)).mp h'
      obtain rfl : factor = factor' := Option.some.inj (hunit.symm.trans hfactor)
      rcases hseconds with ⟨hnil, -⟩ | ⟨later, hlater, rfl⟩
      · exact absurd hnil hrest.ne_nil
      · rw [ih hlater]

end

/-! ## The filter -/

/-- A timestamp has hyphens in its date. -/
def TimeCodec.HasHyphens (time : TimeCodec) : Prop :=
  ∀ text instant, time.parse text = some instant → '-' ∈ text

/-- A date: one that was read, with whatever offset, or an instant between the first date
and the last. -/
def IsDate (time : TimeCodec) (instant : Int) : Prop :=
  (∃ text, time.parse text = some instant) ∨ minInstant ≤ instant ∧ instant ≤ maxInstant

/-- A duration that is accepted, with this cutoff. -/
def AcceptsAge (time : TimeCodec) (now : Int) (text : Str) (cutoff : Int) : Prop :=
  (∃ seconds, IsAge text seconds) ∧ parseAgeFilter time now text = some (some cutoff)

/-- The filter text is read without a panic and to a date; but for timestamps it is accepted
exactly if it is an age; and durations put together are accepted with their offsets added. -/
structure ReadsAge (time : TimeCodec) (now : Int) (text : Str) : Prop where
  checked : ∃ result, parseAgeFilter time now text = some result ∧
    ∀ cutoff, result = some cutoff → IsDate time cutoff
  accepted : time.parse (trim text) = none →
    ((∃ cutoff, parseAgeFilter time now text = some (some cutoff)) ↔
      ∃ seconds, IsAge (trim text) seconds)
  concatenated : ∀ a b offsetA offsetB, trim text = a ++ b →
    AcceptsAge time now a (now - offsetA) → AcceptsAge time now b (now - offsetB) →
      parseAgeFilter time now text = some (some (now - (offsetA + offsetB)))

section

variable {time : TimeCodec} {now : Int} {text : Str}

theorem parseAgeSegments_text {seconds : Int} (t : Str) :
    parseAgeSegments t [] 0 false = some (some seconds) ↔ IsAge t seconds ∧ seconds < 2 ^ 63 := by
  rw [parseAgeSegments_eq_some (by simp) (Int.le_refl 0) (by decide)]
  simp

theorem parseAgeSegments_text_eq_none (t : Str) :
    parseAgeSegments t [] 0 false = none ↔ Overflows t := by
  rw [parseAgeSegments_eq_none (by simp) (Int.le_refl 0) (by decide)]
  simp [Overflows]

/-- A text that is no timestamp overflows, or is an age whose cutoff is looked at, or is
rejected. -/
theorem parseAgeFilter_cases (hparse : time.parse (trim text) = none) :
    Overflows (trim text) ∧ parseAgeFilter time now text = none ∨
      (∃ seconds, IsAge (trim text) seconds ∧ seconds < 2 ^ 63 ∧
        ¬ Overflows (trim text) ∧
        (cutoffFits now seconds ∧
            parseAgeFilter time now text = some (some (now - seconds * 10 ^ 9)) ∨
          ¬ cutoffFits now seconds ∧ parseAgeFilter time now text = none)) ∨
      ¬ Overflows (trim text) ∧ (∀ seconds, IsAge (trim text) seconds → 2 ^ 63 ≤ seconds) ∧
        parseAgeFilter time now text = some none := by
  have hover := parseAgeSegments_text_eq_none (trim text)
  have hage := fun seconds => @parseAgeSegments_text seconds (trim text)
  have hno : parseAgeSegments (trim text) [] 0 false ≠ none → ¬ Overflows (trim text) :=
    mt hover.mpr
  have hlong : parseAgeSegments (trim text) [] 0 false = some none →
      ∀ seconds, IsAge (trim text) seconds → 2 ^ 63 ≤ seconds := by
    intro hloop seconds h
    by_contra hlt
    have hread := (hage seconds).mpr ⟨h, by omega⟩
    rw [hloop] at hread
    cases hread
  unfold parseAgeFilter
  by_cases hne : trim text = []
  · have hloop : parseAgeSegments (trim text) [] 0 false = some none := by
      rw [hne]
      rfl
    exact .inr (.inr ⟨hno (by rw [hloop]; exact nofun), hlong hloop, if_pos hne⟩)
  · simp only [if_neg hne, hparse]
    cases hloop : parseAgeSegments (trim text) [] 0 false with
    | none => exact .inl ⟨hover.mp hloop, rfl⟩
    | some read =>
        rw [hloop] at hno hlong
        have hsome := hno nofun
        cases read with
        | none => exact .inr (.inr ⟨hsome, hlong rfl, rfl⟩)
        | some seconds =>
            obtain ⟨h, hlt⟩ := (hage seconds).mp hloop
            refine .inr (.inl ⟨seconds, h, hlt, hsome, ?_⟩)
            by_cases hfits : cutoffFits now seconds
            · exact .inl ⟨hfits, if_pos hfits⟩
            · exact .inr ⟨hfits, if_neg hfits⟩

/-- No age is a timestamp. -/
theorem TimeCodec.HasHyphens.parse_age {age : Str} {seconds : Int} (htime : time.HasHyphens)
    (hage : IsAge age seconds) : time.parse age = none := by
  cases hread : time.parse age with
  | none => rfl
  | some instant => exact absurd (htime _ _ hread) hage.no_hyphen

/-- The offset of an accepted duration is that of its seconds. -/
theorem AcceptsAge.offset_eq {age : Str} {offset seconds : Int} (htime : time.HasHyphens)
    (haccepts : AcceptsAge time now age (now - offset)) (hage : IsAge age seconds) :
    offset = seconds * 10 ^ 9 := by
  have hresult := haccepts.2
  have hparse : time.parse (trim age) = none := by
    rw [hage.trim_eq]
    exact htime.parse_age hage
  rcases parseAgeFilter_cases hparse with ⟨-, hpanic⟩ |
    ⟨s, hs, -, -, ⟨-, hread⟩ | ⟨-, hpanic⟩⟩ | ⟨-, -, hrejected⟩
  · rw [hpanic] at hresult
    cases hresult
  · rw [hread] at hresult
    rw [hage.trim_eq] at hs
    rw [hage.unique hs]
    have hcutoff := Option.some.inj (Option.some.inj hresult)
    omega
  · rw [hpanic] at hresult
    cases hresult
  · rw [hrejected] at hresult
    cases hresult

/-- A timestamp is read to its date. -/
theorem readsAge_of_timestamp (htime : time.HasHyphens) {instant : Int}
    (hparse : time.parse (trim text) = some instant) : ReadsAge time now text := by
  have hne : trim text ≠ [] := List.ne_nil_of_mem (htime _ _ hparse)
  have hread : parseAgeFilter time now text = some (some instant) := by
    unfold parseAgeFilter
    simp only [if_neg hne, hparse]
  constructor
  · refine ⟨some instant, hread, fun cutoff h => ?_⟩
    rw [← Option.some.inj h]
    exact .inl ⟨_, hparse⟩
  · intro hnone
    rw [hparse] at hnone
    cases hnone
  · rintro a b offsetA offsetB htext ⟨⟨sa, ha⟩, -⟩ ⟨⟨sb, hb⟩, -⟩
    have hnone := htime.parse_age (ha.append hb)
    rw [← htext, hparse] at hnone
    cases hnone

/-- An age that fits is read to its cutoff. -/
theorem readsAge_of_age (htime : time.HasHyphens) {seconds : Int}
    (hage : IsAge (trim text) seconds) (hfits : cutoffFits now seconds)
    (hread : parseAgeFilter time now text = some (some (now - seconds * 10 ^ 9))) :
    ReadsAge time now text := by
  constructor
  · refine ⟨_, hread, fun cutoff h => ?_⟩
    rw [← Option.some.inj h]
    exact .inr hfits
  · exact fun _ => iff_of_true ⟨_, hread⟩ ⟨seconds, hage⟩
  · intro a b offsetA offsetB htext haccepts hbccepts
    obtain ⟨sa, ha⟩ := haccepts.1
    obtain ⟨sb, hb⟩ := hbccepts.1
    rw [htext] at hage
    have hsum := hage.unique (ha.append hb)
    rw [hread, haccepts.offset_eq htime ha, hbccepts.offset_eq htime hb, hsum, Int.add_mul]

/-- A text that is no age is rejected. -/
theorem readsAge_of_rejected (hnone : ∀ seconds, ¬ IsAge (trim text) seconds)
    (hread : parseAgeFilter time now text = some none) : ReadsAge time now text := by
  constructor
  · exact ⟨none, hread, fun _ h => nomatch h⟩
  · refine fun _ => iff_of_false ?_ fun h => hnone _ h.choose_spec
    rintro ⟨cutoff, hcutoff⟩
    rw [hread] at hcutoff
    cases hcutoff
  · rintro a b offsetA offsetB htext ⟨⟨sa, ha⟩, -⟩ ⟨⟨sb, hb⟩, -⟩
    rw [htext] at hnone
    exact absurd (ha.append hb) (hnone _)

theorem not_readsAge_of_panic (hpanic : parseAgeFilter time now text = none) :
    ¬ ReadsAge time now text := by
  intro hreads
  obtain ⟨result, hresult, -⟩ := hreads.checked
  rw [hpanic] at hresult
  cases hresult

end

/-- An age filter is read as it should be exactly if its text is a timestamp, or its
seconds do not overflow and an age has a cutoff among the dates. -/
theorem parseAgeFilter_reads_iff (time : TimeCodec) (htime : time.HasHyphens) (now : Int)
    (text : Str) :
    ReadsAge time now text ↔
      (∃ instant, time.parse (trim text) = some instant) ∨
        ¬ Overflows (trim text) ∧
          ∀ seconds, IsAge (trim text) seconds → seconds < 2 ^ 63 ∧ cutoffFits now seconds := by
  cases hparse : time.parse (trim text) with
  | some instant => exact iff_of_true (readsAge_of_timestamp htime hparse) (.inl ⟨instant, rfl⟩)
  | none =>
      rw [or_iff_right nofun]
      rcases parseAgeFilter_cases hparse with ⟨hover, hpanic⟩ |
        ⟨seconds, hage, hlt, hover, ⟨hfits, hread⟩ | ⟨hfits, hpanic⟩⟩ | ⟨hover, hlong, hread⟩
      · exact iff_of_false (not_readsAge_of_panic hpanic) fun h => h.1 hover
      · refine iff_of_true (readsAge_of_age htime hage hfits hread) ⟨hover, fun more h => ?_⟩
        rw [← hage.unique h]
        exact ⟨hlt, hfits⟩
      · exact iff_of_false (not_readsAge_of_panic hpanic) fun h => hfits (h.2 seconds hage).2
      · constructor
        · intro hreads
          refine ⟨hover, fun seconds hage => ?_⟩
          obtain ⟨cutoff, hcutoff⟩ := (hreads.accepted hparse).mpr ⟨seconds, hage⟩
          rw [hread] at hcutoff
          cases hcutoff
        · rintro ⟨-, hfits⟩
          refine readsAge_of_rejected (fun seconds hage => ?_) hread
          have hlt := (hfits seconds hage).1
          have hge := hlong seconds hage
          omega

theorem noTimes_hasHyphens : noTimes.HasHyphens := fun _ _ h => nomatch h

/-- The first of May 2025, at midnight. -/
def mayFirst : Int := 1746057600 * 10 ^ 9

/-- Two and a half days. -/
theorem parseAgeFilter_reads_iff_days : ReadsAge noTimes mayFirst "2d12h".toList := by
  have htrim : trim "2d12h".toList = "2d12h".toList := by decide
  have hloop : parseAgeSegments "2d12h".toList [] 0 false = some (some 216000) := by decide
  have hage := (parseAgeSegments_text _).mp hloop
  refine (parseAgeFilter_reads_iff noTimes noTimes_hasHyphens mayFirst _).mpr (.inr ?_)
  rw [htrim]
  constructor
  · rw [← parseAgeSegments_text_eq_none, hloop]
    exact nofun
  · intro seconds h
    rw [h.unique hage.1]
    exact ⟨hage.2, by decide, by decide⟩

/-- An age of twenty thousand years leaves the dates, and the program panics. -/
theorem long_age_panics :
    ¬ ∀ (time : TimeCodec), time.HasHyphens → ∀ (now : Int) (text : Str),
      ReadsAge time now text := by
  intro h
  obtain ⟨result, hresult, -⟩ := (h noTimes noTimes_hasHyphens mayFirst "20000y".toList).checked
  have hpanic : parseAgeFilter noTimes mayFirst "20000y".toList = none := by decide
  rw [hpanic] at hresult
  cases hresult

end AbixioUi
