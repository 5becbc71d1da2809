import AbixioUi.Foundation.Text
import Mathlib.Tactic.Ring

/-! # The wildcard matcher

The matcher behind include and exclude patterns and the object search. The
segment matcher keeps the source's cursors. `wildcardMatch` slices its text by a
byte offset that is a character count, so a slice can miss a character boundary;
the source panics there and the model returns `none`.
-/

namespace AbixioUi

open Foundation

/-- Cursors of the segment matcher; `star` holds the last `*` met in the pattern
and the text position its match currently ends at. -/
structure SegmentCursor where
  pi : Nat
  ti : Nat
  star : Option (Nat × Nat)
deriving DecidableEq, Repr

/-- One iteration of the matching loop; `none` is the early `return false`. -/
def segmentStep (pat txt : Str) (allowSlash : Bool) (c : SegmentCursor) :
    Option SegmentCursor :=
  match txt[c.ti]? with
  | none => none
  | some t =>
      if pat[c.pi]? = some '?' ∧ (allowSlash = true ∨ t ≠ '/') then
        some ⟨c.pi + 1, c.ti + 1, c.star⟩
      else if pat[c.pi]? ≠ some '*' ∧ pat[c.pi]? ≠ some '?' ∧ pat[c.pi]? = some t then
        some ⟨c.pi + 1, c.ti + 1, c.star⟩
      else if pat[c.pi]? = some '*' then
        some ⟨c.pi + 1, c.ti, some (c.pi, c.ti)⟩
      else match c.star with
        | some (starPi, starTi) =>
            -- backtrack: the star takes one more character, never a separator
            if allowSlash = false ∧ txt[starTi]? = some '/' then none
            else some ⟨starPi + 1, starTi + 1, some (starPi, starTi + 1)⟩
        | none => none

/-- The outer `none` is an exhausted budget, the inner one a rejected text. -/
def segmentLoop (pat txt : Str) (allowSlash : Bool) :
    Nat → SegmentCursor → Option (Option SegmentCursor)
  | 0, _ => none
  | fuel + 1, c =>
      if c.ti < txt.length then
        match segmentStep pat txt allowSlash c with
        | some next => segmentLoop pat txt allowSlash fuel next
        | none => some none
      else some (some c)

def segmentFuel (pat txt : Str) : Nat := (txt.length + 2) * (pat.length + 1)

/-- Match a glob without `**` against the whole text. -/
def wildcardMatchSegment (pattern text : Str) (allowSlash : Bool) : Bool :=
  match segmentLoop pattern text allowSlash (segmentFuel pattern text) ⟨0, 0, none⟩ with
  | some (some c) => (pattern.drop c.pi).all (· == '*')
  | _ => false

/-- Characters consumed by the shortest matching prefix. The source's early exit
needs an end beyond twice the pattern plus the text, which the range never reaches. -/
def findSegmentMatch (pattern text : Str) (allowSlash : Bool) : Option Nat :=
  (List.range (text.length + 1)).find? fun n =>
    wildcardMatchSegment pattern (text.take n) allowSlash

/-- Byte slicing; `none` where the offset is not a character boundary. -/
def sliceFrom : Str → Nat → Option Str
  | s, 0 => some s
  | [], _ + 1 => none
  | c :: s, n + 1 => if c.utf8Size ≤ n + 1 then sliceFrom s (n + 1 - c.utf8Size) else none

/-- Non-overlapping split at `**`, left to right. -/
def splitDoubleStar : Str → List Str
  | '*' :: '*' :: s => [] :: splitDoubleStar s
  | [] => [[]]
  | c :: s =>
      match splitDoubleStar s with
      | [] => [[c]]
      | segment :: segments => (c :: segment) :: segments

def afterSlashes : Str → List Str
  | [] => []
  | c :: s => if c = '/' then s :: afterSlashes s else afterSlashes s

/-- The path boundaries the search visits: the text itself, then after each `/`. -/
def pathBoundaries (s : Str) : List Str := s :: afterSlashes s

def trimSlashes (s : Str) : Str := trimEndMatches '/' (trimStartMatches '/' s)

/-- The slice a segment is found at, with the length of its match. -/
def searchSegment (first : Bool) (seg remaining : Str) : Option (Str × Nat) :=
  if first then (findSegmentMatch seg remaining false).map fun len => (remaining, len)
  else (pathBoundaries remaining).findSome? fun slice =>
    (findSegmentMatch seg slice false).map fun len => (slice, len)

/-- The loop over the segments between `**`. The outer `none` is a panic, the
inner one the early `return false`. -/
def matchSegments : Bool → List Str → Str → Option (Option Str)
  | _, [], remaining => some (some remaining)
  | first, segment :: segments, remaining =>
      let seg := trimSlashes segment
      if seg = [] then matchSegments false segments remaining
      else match searchSegment first seg remaining with
        | none => some none
        | some (slice, len) =>
            match sliceFrom slice len with
            | none => none
            | some rest => matchSegments false segments (trimStartMatches '/' rest)

/-- `none` models a panic. -/
def wildcardMatch (pattern text : Str) : Option Bool :=
  let pat := toAsciiLowercase pattern
  let txt := toAsciiLowercase text
  if '*' ∉ pat ∧ '?' ∉ pat then some (contains txt pat)
  else
    let segments := splitDoubleStar pat
    if segments.length = 1 then some (wildcardMatchSegment pat txt true)
    else match matchSegments true segments txt with
      | none => none
      | some none => some false
      | some (some remaining) =>
          if segments.getLastD [] ≠ [] then some (remaining.all (· == '/')) else some true

/-! ## The segment loop finishes within its budget -/

/-- Cursor bounds the loop keeps. -/
structure SegmentCursor.Bounded (pat txt : Str) (c : SegmentCursor) : Prop where
  pi_le : c.pi ≤ pat.length
  ti_le : c.ti ≤ txt.length
  star_le : ∀ starPi starTi, c.star = some (starPi, starTi) → starPi < pat.length ∧ starTi ≤ c.ti

/-- Text left to the last star, then pattern left: lexicographic, as one number. -/
def SegmentCursor.potential (pat txt : Str) (c : SegmentCursor) : Nat :=
  (match c.star with
    | none => txt.length + 1
    | some (_, starTi) => txt.length - starTi) * (pat.length + 1) + (pat.length - c.pi)

theorem getElem?_lt_length {α : Type} {xs : List α} {i : Nat} {a : α} (h : xs[i]? = some a) :
    i < xs.length := (List.getElem?_eq_some_iff.mp h).1

theorem segmentStep_bounded {pat txt : Str} {allowSlash : Bool} {c next : SegmentCursor}
    (hb : c.Bounded pat txt) (h : segmentStep pat txt allowSlash c = some next) :
    next.Bounded pat txt ∧ next.potential pat txt < c.potential pat txt := by
  obtain ⟨hpi, hti, hstar⟩ := hb
  unfold segmentStep at h
  cases ht : txt[c.ti]? with
  | none => simp [ht] at h
  | some t =>
      have htl := getElem?_lt_length ht
      simp only [ht] at h
      split at h
      · next hq =>
          have hpl := getElem?_lt_length hq.1
          obtain rfl := Option.some.inj h
          refine ⟨⟨hpl, htl, ?_⟩, ?_⟩
          · intro p s hs
            have := hstar p s hs
            exact ⟨this.1, Nat.le_succ_of_le this.2⟩
          · simp only [SegmentCursor.potential]
            omega
      · split at h
        · next hl =>
            have hpl := getElem?_lt_length hl.2.2
            obtain rfl := Option.some.inj h
            refine ⟨⟨hpl, htl, ?_⟩, ?_⟩
            · intro p s hs
              have := hstar p s hs
              exact ⟨this.1, Nat.le_succ_of_le this.2⟩
            · simp only [SegmentCursor.potential]
              omega
        · split at h
          · next hs =>
              have hpl := getElem?_lt_length hs
              obtain rfl := Option.some.inj h
              refine ⟨⟨hpl, hti, by simp [hpl]⟩, ?_⟩
              -- the new star starts no earlier than the one it replaces
              have hle : txt.length - c.ti ≤ (match c.star with
                  | none => txt.length + 1
                  | some (_, starTi) => txt.length - starTi) := by
                cases hcs : c.star with
                | none => simp only; omega
                | some ps =>
                    have := (hstar ps.1 ps.2 hcs).2
                    simp only
                    omega
              have := Nat.mul_le_mul_right (pat.length + 1) hle
              simp only [SegmentCursor.potential]
              omega
          · cases hcs : c.star with
            | none => simp [hcs] at h
            | some ps =>
                obtain ⟨hsp, hst⟩ := hstar ps.1 ps.2 hcs
                simp only [hcs] at h
                split at h
                · simp at h
                · obtain rfl := Option.some.inj h
                  refine ⟨⟨hsp, by simp only; omega, ?_⟩, ?_⟩
                  · intro p s hs
                    simp only [Option.some.injEq, Prod.mk.injEq] at hs
                    simp only
                    omega
                  · have hstep : (txt.length - ps.2) * (pat.length + 1) =
                        (txt.length - (ps.2 + 1)) * (pat.length + 1) + (pat.length + 1) := by
                      rw [show txt.length - ps.2 = txt.length - (ps.2 + 1) + 1 by omega]
                      ring
                    simp only [SegmentCursor.potential, hcs]
                    omega

theorem segmentLoop_isSome {pat txt : Str} {allowSlash : Bool} {fuel : Nat} {c : SegmentCursor}
    (hb : c.Bounded pat txt) (hfuel : c.potential pat txt < fuel) :
    (segmentLoop pat txt allowSlash fuel c).isSome = true := by
  induction fuel generalizing c with
  | zero => omega
  | succ fuel ih =>
      unfold segmentLoop
      split
      · cases hs : segmentStep pat txt allowSlash c with
        | none => rfl
        | some next =>
            obtain ⟨hn, hlt⟩ := segmentStep_bounded hb hs
            exact ih hn (by omega)
      · rfl

/-- The budget of `wildcardMatchSegment` is never exhausted. -/
theorem segmentLoop_terminates (pat txt : Str) (allowSlash : Bool) :
    (segmentLoop pat txt allowSlash (segmentFuel pat txt) ⟨0, 0, none⟩).isSome = true := by
  apply segmentLoop_isSome
  · exact ⟨Nat.zero_le _, Nat.zero_le _, by simp⟩
  · simp only [SegmentCursor.potential, segmentFuel]
    have : (txt.length + 2) * (pat.length + 1) =
        (txt.length + 1) * (pat.length + 1) + (pat.length + 1) := by ring
    omega

end AbixioUi
