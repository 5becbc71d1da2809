import AbixioUi.Foundation.Glob
import AbixioUi.Glob

/-! # The segment matcher

It tries one place for each `*` but the last, and moves only that one on. What it
decides is nevertheless whether the whole text matches: the places of the earlier
ones are never too late.
-/

namespace AbixioUi

open Foundation Foundation.Glob

/-! ## Segments as patterns with gaps -/

def globToken (c : Char) : Token Char := if c = '*' then .many else .one c

/-- What a wildcard may stand for. -/
def Crosses (allowSlash : Bool) (c : Char) : Prop := allowSlash = true ∨ c ≠ '/'

/-- A `?` takes what a wildcard may stand for, another character takes itself. -/
def Takes (allowSlash : Bool) (p c : Char) : Prop := if p = '?' then Crosses allowSlash c else p = c

/-- The whole text matches the pattern. -/
def SegmentMatches (allowSlash : Bool) (pattern text : Str) : Prop :=
  Matches (Takes allowSlash) (Crosses allowSlash) (pattern.map globToken) text

section Tokens

variable {allowSlash : Bool} {p c : Char} {pattern text : Str}

@[simp] theorem globToken_star : globToken '*' = .many := rfl

theorem globToken_of_ne (h : p ≠ '*') : globToken p = .one p := if_neg h

/-- A token that takes a character a wildcard may stand for takes no other. -/
theorem takes_rigid (allowSlash : Bool) (p a b : Char) (ha : Takes allowSlash p a)
    (hb : Takes allowSlash p b) (h : Crosses allowSlash a) : Crosses allowSlash b := by
  unfold Takes at ha hb
  split at ha
  next hp => rwa [if_pos hp] at hb
  next hp =>
    rw [if_neg hp] at hb
    exact hb ▸ ha ▸ h

theorem map_globToken_of_no_star (h : '*' ∉ pattern) :
    pattern.map globToken = pattern.map .one := by
  refine List.map_congr_left fun c hc => globToken_of_ne ?_
  rintro rfl
  exact h hc

theorem segmentMatches_cons_iff (h : p ≠ '*') :
    SegmentMatches allowSlash (p :: pattern) (c :: text) ↔
      Takes allowSlash p c ∧ SegmentMatches allowSlash pattern text := by
  rw [SegmentMatches, List.map_cons, globToken_of_ne h]
  exact matches_one_cons_iff

theorem segmentMatches_nil_right_iff :
    SegmentMatches allowSlash pattern [] ↔ ∀ c ∈ pattern, c = '*' := by
  rw [SegmentMatches, matches_nil_right_iff, List.forall_mem_map]
  refine forall₂_congr fun c _ => ?_
  unfold globToken
  split <;> simp_all

end Tokens

/-! ## The invariant of the loop -/

theorem drop_eq_cons_of_getElem? {α : Type} {xs : List α} {i : Nat} {a : α}
    (h : xs[i]? = some a) : xs.drop i = a :: xs.drop (i + 1) := by
  obtain ⟨hi, rfl⟩ := List.getElem?_eq_some_iff.mp h
  exact List.drop_eq_getElem_cons hi

section Loop

variable (pat txt : Str) (allowSlash : Bool)

/-- The rest of the text matches the rest of the pattern. -/
def SegmentCursor.Current (c : SegmentCursor) : Prop :=
  SegmentMatches allowSlash (pat.drop c.pi) (txt.drop c.ti)

/-- The rest of the pattern behind the last star matches where the star takes more
characters than it does now. -/
def SegmentCursor.Later (c : SegmentCursor) : Prop :=
  ∃ starPi starTi, c.star = some (starPi, starTi) ∧ ∃ gap rest,
    txt.drop starTi = gap ++ rest ∧ gap ≠ [] ∧ (∀ a ∈ gap, Crosses allowSlash a) ∧
      SegmentMatches allowSlash (pat.drop (starPi + 1)) rest

/-- The loop can still come to a match. -/
def SegmentCursor.Live (c : SegmentCursor) : Prop :=
  c.Current pat txt allowSlash ∨ c.Later pat txt allowSlash

/-- The characters since the last star were taken one by one. -/
def SegmentCursor.Held (c : SegmentCursor) : Prop :=
  ∀ starPi starTi, c.star = some (starPi, starTi) → ∃ ps found,
    pat.drop (starPi + 1) = ps ++ pat.drop c.pi ∧ txt.drop starTi = found ++ txt.drop c.ti ∧
      '*' ∉ ps ∧ List.Forall₂ (Takes allowSlash) ps found

variable {pat txt allowSlash} {c : SegmentCursor}

/-- Where the pattern goes on with a star, it need not move the last one. -/
theorem live_at_star (hheld : c.Held pat txt allowSlash) {pattern : Str}
    (hpat : pat.drop c.pi = '*' :: pattern) :
    c.Live pat txt allowSlash ↔ c.Current pat txt allowSlash := by
  refine or_iff_left_of_imp ?_
  rintro ⟨starPi, starTi, hstar, gap, rest, htxt, -, hgap, hrest⟩
  obtain ⟨ps, found, hps, hfound, hnostar, htakes⟩ := hheld starPi starTi hstar
  rw [SegmentMatches, hps, List.map_append, map_globToken_of_no_star hnostar] at hrest
  obtain ⟨found', rest', rfl, hblock, hlater⟩ := matches_append_iff.mp hrest
  obtain ⟨gap', hgap', hfree⟩ := gap_of_later (takes_rigid allowSlash) htakes
    (matches_fixed_iff.mp hblock) hgap (hfound.symm.trans htxt)
  rw [SegmentCursor.Current, SegmentMatches, hgap', hpat, List.map_cons, globToken_star]
  rw [hpat, List.map_cons, globToken_star] at hlater
  obtain ⟨front, last, rfl, hfront, hlast⟩ := matches_many_iff.mp hlater
  refine matches_many_iff.mpr ⟨gap' ++ front, last, by simp, ?_, hlast⟩
  exact List.forall_mem_append.mpr ⟨hfree, hfront⟩

/-- The cursors move over a character that the pattern takes. -/
theorem live_advance {p t : Char} (hp : pat[c.pi]? = some p) (ht : txt[c.ti]? = some t)
    (hstar : p ≠ '*') (htakes : Takes allowSlash p t) (hheld : c.Held pat txt allowSlash) :
    SegmentCursor.Held pat txt allowSlash ⟨c.pi + 1, c.ti + 1, c.star⟩ ∧
      (c.Live pat txt allowSlash ↔
        SegmentCursor.Live pat txt allowSlash ⟨c.pi + 1, c.ti + 1, c.star⟩) := by
  have hpat : pat.drop c.pi = p :: pat.drop (c.pi + 1) := drop_eq_cons_of_getElem? hp
  have htxt : txt.drop c.ti = t :: txt.drop (c.ti + 1) := drop_eq_cons_of_getElem? ht
  constructor
  · intro starPi starTi heq
    obtain ⟨ps, found, hps, hfound, hnostar, hblock⟩ := hheld starPi starTi heq
    refine ⟨ps ++ [p], found ++ [t], ?_, ?_, ?_, ?_⟩
    · rw [hps, hpat]
      simp
    · rw [hfound, htxt]
      simp
    · simp [hnostar, Ne.symm hstar]
    · exact List.rel_append hblock (.cons htakes .nil)
  · refine or_congr ?_ Iff.rfl
    rw [SegmentCursor.Current, hpat, htxt, segmentMatches_cons_iff hstar]
    exact and_iff_right htakes

/-- A star that is met starts with no character. -/
theorem live_star (hp : pat[c.pi]? = some '*')
    (hheld : c.Held pat txt allowSlash) :
    SegmentCursor.Held pat txt allowSlash ⟨c.pi + 1, c.ti, some (c.pi, c.ti)⟩ ∧
      (c.Live pat txt allowSlash ↔
        SegmentCursor.Live pat txt allowSlash ⟨c.pi + 1, c.ti, some (c.pi, c.ti)⟩) := by
  have hpat : pat.drop c.pi = '*' :: pat.drop (c.pi + 1) := drop_eq_cons_of_getElem? hp
  constructor
  · intro starPi starTi heq
    obtain ⟨rfl, rfl⟩ := Prod.mk.inj (Option.some.inj heq)
    exact ⟨[], [], rfl, rfl, List.not_mem_nil, .nil⟩
  · rw [live_at_star hheld hpat, SegmentCursor.Current, SegmentMatches, hpat, List.map_cons,
      globToken_star, matches_many_iff]
    constructor
    · rintro ⟨gap, rest, htxt, hgap, hrest⟩
      by_cases hne : gap = []
      · subst hne
        left
        rw [SegmentCursor.Current, SegmentMatches, htxt]
        exact hrest
      · exact .inr ⟨c.pi, c.ti, rfl, gap, rest, htxt, hne, hgap, hrest⟩
    · rintro (hcurrent | ⟨starPi, starTi, heq, gap, rest, htxt, -, hgap, hrest⟩)
      · exact ⟨[], _, rfl, by simp, hcurrent⟩
      · obtain ⟨rfl, rfl⟩ := Prod.mk.inj (Option.some.inj heq)
        exact ⟨gap, rest, htxt, hgap, hrest⟩

/-- A pattern that is used up, or takes another character, does not match here. -/
theorem not_current {t : Char} (ht : txt[c.ti]? = some t) (hstar : pat[c.pi]? ≠ some '*')
    (htakes : ∀ p, pat[c.pi]? = some p → ¬ Takes allowSlash p t) :
    ¬ c.Current pat txt allowSlash := by
  rw [SegmentCursor.Current, drop_eq_cons_of_getElem? ht]
  intro h
  cases hp : pat[c.pi]? with
  | none =>
      rw [List.drop_eq_nil_of_le (List.getElem?_eq_none_iff.mp hp)] at h
      exact absurd (matches_nil_iff.mp h) (List.cons_ne_nil _ _)
  | some p =>
      have hne : p ≠ '*' := fun heq => hstar (heq ▸ hp)
      rw [drop_eq_cons_of_getElem? hp, segmentMatches_cons_iff hne] at h
      exact htakes p hp h.1

/-- The last star takes one more character, where it may. -/
theorem live_backtrack {starPi starTi : Nat} {t : Char} (ht : txt[c.ti]? = some t)
    (hstar : c.star = some (starPi, starTi)) (hcurrent : ¬ c.Current pat txt allowSlash)
    (hheld : c.Held pat txt allowSlash) :
    (c.Live pat txt allowSlash ↔
      ¬ (allowSlash = false ∧ txt[starTi]? = some '/') ∧
        SegmentCursor.Live pat txt allowSlash
          ⟨starPi + 1, starTi + 1, some (starPi, starTi + 1)⟩) := by
  obtain ⟨ps, found, -, hfound, -, -⟩ := hheld starPi starTi hstar
  obtain ⟨a, ha⟩ : ∃ a, txt[starTi]? = some a := by
    refine ⟨_, List.getElem?_eq_getElem ?_⟩
    by_contra hle
    rw [List.drop_eq_nil_of_le (by omega), drop_eq_cons_of_getElem? ht] at hfound
    simp at hfound
  have htxt : txt.drop starTi = a :: txt.drop (starTi + 1) := drop_eq_cons_of_getElem? ha
  have hcrosses : ¬ (allowSlash = false ∧ txt[starTi]? = some '/') ↔ Crosses allowSlash a := by
    rw [ha, Crosses]
    cases allowSlash <;> simp
  rw [hcrosses, SegmentCursor.Live, or_iff_right hcurrent]
  constructor
  · rintro ⟨_, _, heq, gap, rest, hgap, hne, hfree, hrest⟩
    obtain ⟨rfl, rfl⟩ := Prod.mk.inj (Option.some.inj (hstar.symm.trans heq))
    cases gap with
    | nil => exact absurd rfl hne
    | cons b gap =>
        obtain ⟨rfl, htail⟩ := List.cons.inj (htxt.symm.trans hgap)
        obtain ⟨hb, hfree⟩ := List.forall_mem_cons.mp hfree
        refine ⟨hb, ?_⟩
        by_cases hgapne : gap = []
        · subst hgapne
          left
          rw [SegmentCursor.Current]
          rwa [show txt.drop (starTi + 1) = rest from htail]
        · exact .inr ⟨starPi, starTi + 1, rfl, gap, rest, htail, hgapne, hfree, hrest⟩
  · rintro ⟨ha, hcurrent | ⟨_, _, heq, gap, rest, hgap, hne, hfree, hrest⟩⟩
    · exact ⟨starPi, starTi, hstar, [a], _, htxt, by simp, by simpa using ha, hcurrent⟩
    · obtain ⟨rfl, rfl⟩ := Prod.mk.inj (Option.some.inj heq)
      exact ⟨starPi, starTi, hstar, a :: gap, rest, by rw [htxt, hgap]; rfl, by simp,
        List.forall_mem_cons.mpr ⟨ha, hfree⟩, hrest⟩

/-- At the end of the text a star cannot take more. -/
theorem live_at_end (hend : txt.length ≤ c.ti) (hheld : c.Held pat txt allowSlash) :
    c.Live pat txt allowSlash ↔ (pat.drop c.pi).all (· == '*') = true := by
  have htxt : txt.drop c.ti = [] := List.drop_eq_nil_of_le hend
  have hlater : ¬ c.Later pat txt allowSlash := by
    rintro ⟨starPi, starTi, hstar, gap, rest, hgap, hne, -, hrest⟩
    obtain ⟨ps, found, hps, hfound, hnostar, hblock⟩ := hheld starPi starTi hstar
    rw [SegmentMatches, hps, List.map_append, map_globToken_of_no_star hnostar] at hrest
    obtain ⟨found', rest', rfl, hblock', -⟩ := matches_append_iff.mp hrest
    -- The tokens behind the star take as many characters as the text has left.
    rw [htxt, List.append_nil] at hfound
    have hlength := congrArg List.length (hfound.symm.trans hgap)
    have hpos := List.length_pos_iff.mpr hne
    rw [List.length_append, List.length_append, ← hblock.length_eq,
      ← (matches_fixed_iff.mp hblock').length_eq] at hlength
    omega
  rw [SegmentCursor.Live, or_iff_left hlater, SegmentCursor.Current, htxt,
    segmentMatches_nil_right_iff, List.all_eq_true]
  simp

end Loop

/-! ## The loop decides whether the text matches -/

section Decides

variable {pat txt : Str} {allowSlash : Bool} {c : SegmentCursor}

theorem takes_question {t : Char} : Takes allowSlash '?' t ↔ allowSlash = true ∨ t ≠ '/' := by
  rw [Takes, if_pos rfl, Crosses]

theorem takes_literal {p t : Char} (h : p ≠ '?') : Takes allowSlash p t ↔ p = t := by
  rw [Takes, if_neg h]

/-- A step of the loop goes on exactly where a match can still be reached. -/
def StepLive (pat txt : Str) (allowSlash : Bool) (c : SegmentCursor) :
    Option SegmentCursor → Prop
  | some next => next.Held pat txt allowSlash ∧
      (c.Live pat txt allowSlash ↔ next.Live pat txt allowSlash)
  | none => ¬ c.Live pat txt allowSlash

theorem segmentStep_live {t : Char} (ht : txt[c.ti]? = some t)
    (hheld : c.Held pat txt allowSlash) :
    StepLive pat txt allowSlash c (segmentStep pat txt allowSlash c) := by
  unfold segmentStep
  rw [ht]
  simp only
  split
  next h => exact live_advance h.1 ht (by decide) (takes_question.mpr h.2) hheld
  next hquestion =>
    split
    next h =>
      have hstar : t ≠ '*' := fun heq => h.1 (heq ▸ h.2.2)
      have hne : t ≠ '?' := fun heq => h.2.1 (heq ▸ h.2.2)
      exact live_advance h.2.2 ht hstar ((takes_literal hne).mpr rfl) hheld
    next hliteral =>
      split
      next h => exact live_star h hheld
      next hstar =>
        have hcurrent : ¬ c.Current pat txt allowSlash := by
          refine not_current ht hstar fun p hp htakes => ?_
          by_cases hne : p = '?'
          · subst hne
            exact hquestion ⟨hp, takes_question.mp htakes⟩
          · obtain rfl := (takes_literal hne).mp htakes
            exact hliteral ⟨hstar, fun heq => hne (Option.some.inj (hp.symm.trans heq)), hp⟩
        cases hlast : c.star with
        | none =>
            rintro (h | ⟨_, _, heq, -⟩)
            · exact hcurrent h
            · cases hlast.symm.trans heq
        | some last =>
            obtain ⟨starPi, starTi⟩ := last
            have hlive := live_backtrack ht hlast hcurrent hheld
            simp only
            split
            next hslash => exact fun h => (hlive.mp h).1 hslash
            next hslash =>
              refine ⟨?_, hlive.trans (and_iff_right hslash)⟩
              intro _ _ heq
              obtain ⟨rfl, rfl⟩ := Prod.mk.inj (Option.some.inj heq)
              exact ⟨[], [], rfl, rfl, List.not_mem_nil, .nil⟩

/-- The loop ends where a match is reached, and gives up where none can be. -/
theorem segmentLoop_live {fuel : Nat} {result : Option SegmentCursor}
    (hheld : c.Held pat txt allowSlash)
    (h : segmentLoop pat txt allowSlash fuel c = some result) :
    c.Live pat txt allowSlash ↔
      ∃ last, result = some last ∧ (pat.drop last.pi).all (· == '*') = true := by
  induction fuel generalizing c with
  | zero => cases h
  | succ fuel ih =>
      rw [segmentLoop] at h
      split at h
      next hlt =>
        have hstep := segmentStep_live (List.getElem?_eq_getElem hlt) hheld
        cases hnext : segmentStep pat txt allowSlash c with
        | none =>
            rw [hnext] at h hstep
            obtain rfl := Option.some.inj h
            simp only [reduceCtorEq, false_and, exists_false, iff_false]
            exact hstep
        | some next =>
            rw [hnext] at h hstep
            exact hstep.2.trans (ih hstep.1 h)
      next hend =>
        obtain rfl := Option.some.inj h
        rw [live_at_end (Nat.le_of_not_lt hend) hheld]
        simp

/-- The matcher accepts exactly the texts that match. -/
theorem wildcardMatchSegment_iff_matches (pattern text : Str) (allowSlash : Bool) :
    wildcardMatchSegment pattern text allowSlash = true ↔
      SegmentMatches allowSlash pattern text := by
  have hheld : SegmentCursor.Held pattern text allowSlash ⟨0, 0, none⟩ := by
    intro _ _ heq
    cases heq
  have hlive : SegmentCursor.Live pattern text allowSlash ⟨0, 0, none⟩ ↔
      SegmentMatches allowSlash pattern text := by
    refine or_iff_left ?_
    rintro ⟨_, _, heq, -⟩
    cases heq
  obtain ⟨result, hresult⟩ :=
    Option.isSome_iff_exists.mp (segmentLoop_terminates pattern text allowSlash)
  rw [← hlive, segmentLoop_live hheld hresult, wildcardMatchSegment, hresult]
  cases result <;> simp

/-- A loop that has ended is not changed by a larger budget. -/
theorem segmentLoop_mono {fuel more : Nat} {result : Option SegmentCursor} {c : SegmentCursor}
    (h : segmentLoop pat txt allowSlash fuel c = some result) (hmore : fuel ≤ more) :
    segmentLoop pat txt allowSlash more c = some result := by
  induction fuel generalizing more c with
  | zero => cases h
  | succ fuel ih =>
      obtain ⟨more, rfl⟩ : ∃ rest, more = rest + 1 := ⟨more - 1, by omega⟩
      unfold segmentLoop at h ⊢
      split at h
      next hinside =>
        rw [if_pos hinside]
        cases hstep : segmentStep pat txt allowSlash c with
        | none =>
            rw [hstep] at h
            exact h
        | some next =>
            rw [hstep] at h
            exact ih h (by omega)
      next hend =>
        rw [if_neg hend]
        exact h

/-- The loop comes to a decision, whatever the budget above its own, and the matcher's
answer is whether the whole text matches. -/
theorem wildcardMatchSegment_decides (pattern text : Str) (allowSlash : Bool) :
    (∃ decision, ∀ fuel, segmentFuel pattern text ≤ fuel →
        segmentLoop pattern text allowSlash fuel ⟨0, 0, none⟩ = some decision) ∧
      (wildcardMatchSegment pattern text allowSlash = true ↔
        SegmentMatches allowSlash pattern text) := by
  constructor
  · obtain ⟨decision, hdecision⟩ :=
      Option.isSome_iff_exists.mp (segmentLoop_terminates pattern text allowSlash)
    exact ⟨decision, fun fuel hfuel => segmentLoop_mono hdecision hfuel⟩
  · exact wildcardMatchSegment_iff_matches pattern text allowSlash

end Decides

end AbixioUi
