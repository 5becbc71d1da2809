import AbixioUi.Glob

/-! # The slices of the wildcard matcher

The matcher over byte offsets, with every slice it takes written down. Search
positions are bytes after a separator and are always boundaries; the end of a match
is a count of characters, and is the byte it is used as exactly when the characters
before it are of one byte each.
-/

namespace AbixioUi

open Foundation

/-! ## Byte offsets -/

def utf8Len (s : Str) : Nat := (s.map Char.utf8Size).sum

/-- The byte offset of the first occurrence of a character. -/
def findByte (c : Char) : Str → Option Nat
  | [] => none
  | d :: s => if d = c then some 0 else (findByte c s).map (· + d.utf8Size)

@[simp] theorem utf8Len_nil : utf8Len [] = 0 := rfl

@[simp] theorem utf8Len_cons (c : Char) (s : Str) : utf8Len (c :: s) = c.utf8Size + utf8Len s := by
  simp [utf8Len]

@[simp] theorem utf8Len_append (s t : Str) : utf8Len (s ++ t) = utf8Len s + utf8Len t := by
  simp [utf8Len]

/-- A slice behind a prefix leaves the rest. -/
theorem sliceFrom_append (front rest : Str) :
    sliceFrom (front ++ rest) (utf8Len front) = some rest := by
  induction front with
  | nil => cases rest <;> rfl
  | cons c front ih =>
      have hpos := Char.utf8Size_pos c
      rw [utf8Len_cons,
        show c.utf8Size + utf8Len front = c.utf8Size + utf8Len front - 1 + 1 by omega,
        List.cons_append, sliceFrom, if_pos (by omega)]
      rw [show c.utf8Size + utf8Len front - 1 + 1 - c.utf8Size = utf8Len front by omega]
      exact ih

/-- What a slice leaves is behind a prefix of that many bytes. -/
theorem eq_append_of_sliceFrom {s rest : Str} {n : Nat} (h : sliceFrom s n = some rest) :
    ∃ front, s = front ++ rest ∧ utf8Len front = n := by
  induction s generalizing n with
  | nil =>
      cases n with
      | zero => exact ⟨[], by simpa [sliceFrom] using h, rfl⟩
      | succ n => simp [sliceFrom] at h
  | cons c s ih =>
      cases n with
      | zero => exact ⟨[], by simpa [sliceFrom] using h, rfl⟩
      | succ n =>
          rw [sliceFrom] at h
          split at h
          · next hle =>
            obtain ⟨front, rfl, hlen⟩ := ih h
            exact ⟨c :: front, rfl, by rw [utf8Len_cons, hlen]; omega⟩
          · cases h

/-- Characters of one byte each. -/
def OneByte (s : Str) : Prop := ∀ c ∈ s, c.utf8Size = 1

instance (s : Str) : Decidable (OneByte s) := List.decidableBAll _ s

theorem length_le_utf8Len (s : Str) : s.length ≤ utf8Len s := by
  induction s with
  | nil => exact le_refl 0
  | cons c s ih =>
      have hpos := Char.utf8Size_pos c
      rw [utf8Len_cons, List.length_cons]
      omega

theorem oneByte_iff {s : Str} : OneByte s ↔ utf8Len s = s.length := by
  induction s with
  | nil => simp [OneByte]
  | cons c s ih =>
      have hpos := Char.utf8Size_pos c
      have hle := length_le_utf8Len s
      have htail : OneByte (c :: s) ↔ c.utf8Size = 1 ∧ OneByte s := List.forall_mem_cons
      rw [htail, ih, utf8Len_cons, List.length_cons]
      omega

/-- A count of characters is a byte offset that removes them exactly when they are
of one byte each. -/
theorem sliceFrom_take_iff {s : Str} {n : Nat} (hn : n ≤ s.length) :
    sliceFrom s n = some (s.drop n) ↔ OneByte (s.take n) := by
  have hlen : (s.take n).length = n := List.length_take_of_le hn
  constructor
  · intro h
    obtain ⟨front, hs, hbytes⟩ := eq_append_of_sliceFrom h
    have hfront : front = s.take n := by
      have hcount : front.length = (s.take n).length := by
        have hlength := congrArg List.length hs
        rw [List.length_append, List.length_drop] at hlength
        omega
      exact (List.append_inj (hs.symm.trans (List.take_append_drop n s).symm) hcount).1
    rw [oneByte_iff, ← hfront, hbytes, hfront, hlen]
  · intro h
    have hslice := sliceFrom_append (s.take n) (s.drop n)
    rwa [oneByte_iff.mp h, hlen, List.take_append_drop] at hslice

theorem findByte_eq_none {c : Char} {s : Str} (h : findByte c s = none) : c ∉ s := by
  induction s with
  | nil => simp
  | cons d s ih =>
      rw [findByte] at h
      split at h
      · cases h
      · next hne =>
        rw [Option.map_eq_none_iff] at h
        simp [ih h, Ne.symm hne]

theorem eq_append_of_findByte {c : Char} {s : Str} {n : Nat} (h : findByte c s = some n) :
    ∃ front rest, s = front ++ c :: rest ∧ utf8Len front = n ∧ c ∉ front := by
  induction s generalizing n with
  | nil => cases h
  | cons d s ih =>
      rw [findByte] at h
      split at h
      · next heq =>
        obtain rfl := Option.some.inj h
        exact ⟨[], s, by rw [heq]; rfl, rfl, by simp⟩
      · next hne =>
        obtain ⟨m, hm, rfl⟩ := Option.map_eq_some_iff.mp h
        obtain ⟨front, rest, rfl, rfl, hnot⟩ := ih hm
        exact ⟨d :: front, rest, rfl, by rw [utf8Len_cons, Nat.add_comm], by
          simp [hnot, Ne.symm hne]⟩

/-! ## Computations that slice -/

/-- A slice of a text from a byte offset, with the number of characters that a match
found before it. -/
structure SliceTaken where
  text : Str
  offset : Nat
  matched : Option Nat
deriving DecidableEq, Repr

/-- On a character boundary inside the text, and behind the match. -/
def SliceTaken.Exact (slice : SliceTaken) : Prop :=
  ∃ rest, sliceFrom slice.text slice.offset = some rest ∧
    ∀ len, slice.matched = some len → rest = slice.text.drop len

/-- The slices taken, and the value unless one of them panicked. -/
structure Sliced (α : Type) where
  slices : List SliceTaken
  value : Option α

namespace Sliced

def done {α : Type} (value : α) : Sliced α := ⟨[], some value⟩

/-- Slice, then go on with what is left. -/
def take {α : Type} (slice : SliceTaken) (next : Str → Sliced α) : Sliced α :=
  match sliceFrom slice.text slice.offset with
  | none => ⟨[slice], none⟩
  | some rest => ⟨slice :: (next rest).slices, (next rest).value⟩

def andThen {α β : Type} (first : Sliced α) (next : α → Sliced β) : Sliced β :=
  match first.value with
  | none => ⟨first.slices, none⟩
  | some value => ⟨first.slices ++ (next value).slices, (next value).value⟩

/-- Every slice is exact. -/
def Exact {α : Type} (sliced : Sliced α) : Prop := ∀ slice ∈ sliced.slices, slice.Exact

end Sliced

/-! ## The matcher over byte offsets -/

/-- The search for a path boundary that a segment matches at; the value is what is
left behind the match, if any. The budget exceeds the boundaries of the text. -/
def searchLoop (seg remaining : Str) : Nat → Nat → Sliced (Option Str)
  | 0, _ => .done none
  | fuel + 1, searchPos =>
      if searchPos > utf8Len remaining then .done none
      else .take ⟨remaining, searchPos, none⟩ fun slice =>
        match findSegmentMatch seg slice false with
        | some len => .take ⟨slice, len, some len⟩ fun rest =>
            .done (some (trimStartMatches '/' rest))
        | none => .take ⟨remaining, searchPos, none⟩ fun slice =>
            match findByte '/' slice with
            | some slash => searchLoop seg remaining fuel (searchPos + slash + 1)
            | none => .done none

def firstSegment (seg remaining : Str) : Sliced (Option Str) :=
  match findSegmentMatch seg remaining false with
  | none => .done none
  | some len => .take ⟨remaining, len, some len⟩ fun rest =>
      .done (some (trimStartMatches '/' rest))

def sliceSegments : Bool → List Str → Str → Sliced (Option Str)
  | _, [], remaining => .done (some remaining)
  | first, segment :: segments, remaining =>
      let seg := trimSlashes segment
      if seg = [] then sliceSegments false segments remaining
      else
        (if first then firstSegment seg remaining
          else searchLoop seg remaining (remaining.length + 1) 0).andThen fun found =>
        match found with
        | none => .done none
        | some rest => sliceSegments false segments rest

/-- The matcher as the source slices. -/
def wildcardMatchSliced (pattern text : Str) : Sliced Bool :=
  let pat := toAsciiLowercase pattern
  let txt := toAsciiLowercase text
  if '*' ∉ pat ∧ '?' ∉ pat then .done (contains txt pat)
  else
    let segments := splitDoubleStar pat
    if segments.length = 1 then .done (wildcardMatchSegment pat txt true)
    else (sliceSegments true segments txt).andThen fun found =>
      match found with
      | none => .done false
      | some remaining =>
          if segments.getLastD [] ≠ [] then .done (remaining.all (· == '/')) else .done true

/-! ## Exact slices -/

namespace Sliced

variable {α β : Type}

@[simp] theorem done_value (value : α) : (done value).value = some value := rfl

@[simp] theorem done_exact (value : α) : (done value).Exact := by
  simp [Exact, done]

theorem take_value (slice : SliceTaken) (next : Str → Sliced α) :
    (take slice next).value =
      (sliceFrom slice.text slice.offset).bind fun rest => (next rest).value := by
  unfold take
  split <;> simp [*]

/-- The same value, and exact together. -/
structure Agrees (a b : Sliced α) : Prop where
  value_eq : a.value = b.value
  exact_iff : a.Exact ↔ b.Exact

theorem Agrees.refl (a : Sliced α) : a.Agrees a := ⟨rfl, .rfl⟩

theorem Agrees.trans {a b c : Sliced α} (hab : a.Agrees b) (hbc : b.Agrees c) : a.Agrees c :=
  ⟨hab.value_eq.trans hbc.value_eq, hab.exact_iff.trans hbc.exact_iff⟩

/-- A search slice is exact, and the rest goes on from it. -/
theorem take_boundary {text front rest : Str} (h : front ++ rest = text)
    (next : Str → Sliced α) :
    (take ⟨text, utf8Len front, none⟩ next).Agrees (next rest) := by
  subst h
  have hslice := sliceFrom_append front rest
  have hexact : SliceTaken.Exact ⟨front ++ rest, utf8Len front, none⟩ := ⟨rest, hslice, by simp⟩
  unfold take
  simp only [hslice]
  exact ⟨rfl, by simp [Exact, hexact]⟩

theorem take_exact {slice : SliceTaken} {next : Str → Sliced α} :
    (take slice next).Exact ↔
      slice.Exact ∧ ∀ rest, sliceFrom slice.text slice.offset = some rest → (next rest).Exact := by
  unfold take Exact
  split
  · next hnone => simp [hnone]
  · next rest hrest => simp [hrest]

theorem andThen_value (first : Sliced α) (next : α → Sliced β) :
    (first.andThen next).value = first.value.bind fun value => (next value).value := by
  unfold andThen
  split <;> simp [*]

theorem andThen_exact {first : Sliced α} {next : α → Sliced β} :
    (first.andThen next).Exact ↔
      first.Exact ∧ ∀ value, first.value = some value → (next value).Exact := by
  unfold andThen Exact
  split
  · next hnone => simp [hnone]
  · next value hvalue => simp only [hvalue, List.mem_append, or_imp, forall_and,
      Option.some.injEq, forall_eq']

end Sliced

/-- What a found match slices. -/
def sliceMatch : Option (Str × Nat) → Sliced (Option Str)
  | none => .done none
  | some (slice, len) => .take ⟨slice, len, some len⟩ fun rest =>
      .done (some (trimStartMatches '/' rest))

theorem firstSegment_eq (seg remaining : Str) :
    firstSegment seg remaining = sliceMatch (searchSegment true seg remaining) := by
  unfold firstSegment searchSegment
  cases findSegmentMatch seg remaining false <;> rfl

theorem findSegmentMatch_le {seg slice : Str} {allowSlash : Bool} {len : Nat}
    (h : findSegmentMatch seg slice allowSlash = some len) : len ≤ slice.length := by
  have hmem := List.mem_of_find?_eq_some h
  rw [List.mem_range] at hmem
  omega

/-- The boundaries behind a separator-free start are those behind the separator. -/
theorem afterSlashes_append {front rest : Str} (h : '/' ∉ front) :
    afterSlashes (front ++ '/' :: rest) = pathBoundaries rest := by
  induction front with
  | nil => simp [afterSlashes, pathBoundaries]
  | cons c front ih =>
      have hc : c ≠ '/' := fun heq => h (heq ▸ List.mem_cons_self)
      rw [List.cons_append, afterSlashes, if_neg hc]
      exact ih fun hmem => h (List.mem_cons_of_mem _ hmem)

theorem afterSlashes_of_not_mem {s : Str} (h : '/' ∉ s) : afterSlashes s = [] := by
  induction s with
  | nil => rfl
  | cons c s ih =>
      have hc : c ≠ '/' := fun heq => h (heq ▸ List.mem_cons_self)
      rw [afterSlashes, if_neg hc]
      exact ih fun hmem => h (List.mem_cons_of_mem _ hmem)

/-- From a boundary on, the search over bytes finds what the search over the
boundaries finds, and its own slices are exact. -/
theorem searchLoop_agrees (seg : Str) {remaining front slice : Str} {fuel : Nat}
    (hrem : front ++ slice = remaining) (hfuel : slice.length < fuel) :
    (searchLoop seg remaining fuel (utf8Len front)).Agrees
      (sliceMatch (searchSegment false seg slice)) := by
  induction fuel generalizing front slice with
  | zero => omega
  | succ fuel ih =>
      have hinside : ¬ utf8Len front > utf8Len remaining := by
        rw [← hrem, utf8Len_append]
        omega
      rw [searchLoop, if_neg hinside]
      refine (Sliced.take_boundary hrem _).trans ?_
      have hsearch : searchSegment false seg slice =
          match findSegmentMatch seg slice false with
          | some len => some (slice, len)
          | none => (afterSlashes slice).findSome? fun slice =>
              (findSegmentMatch seg slice false).map fun len => (slice, len) := by
        unfold searchSegment pathBoundaries
        rw [if_neg Bool.false_ne_true, List.findSome?_cons]
        cases findSegmentMatch seg slice false <;> rfl
      rw [hsearch]
      cases hfind : findSegmentMatch seg slice false with
      | some len => exact .refl _
      | none =>
          refine (Sliced.take_boundary hrem _).trans ?_
          cases hbyte : findByte '/' slice with
          | none =>
              rw [afterSlashes_of_not_mem (findByte_eq_none hbyte)]
              exact .refl _
          | some slash =>
              obtain ⟨before, rest, rfl, rfl, hnot⟩ := eq_append_of_findByte hbyte
              -- The next position is behind the separator.
              have hpos : utf8Len front + utf8Len before + 1 =
                  utf8Len (front ++ before ++ ['/']) := by
                simp
                rfl
              rw [afterSlashes_append hnot]
              simp only [hpos]
              refine ih ?_ ?_
              · simpa using hrem
              · simp only [List.length_append, List.length_cons] at hfuel
                omega

theorem search_agrees (first : Bool) (seg remaining : Str) :
    (if first then firstSegment seg remaining
      else searchLoop seg remaining (remaining.length + 1) 0).Agrees
        (sliceMatch (searchSegment first seg remaining)) := by
  cases first with
  | true =>
      rw [if_pos rfl, firstSegment_eq]
      exact .refl _
  | false =>
      rw [if_neg Bool.false_ne_true]
      exact @searchLoop_agrees seg remaining [] remaining _ rfl (Nat.lt_succ_self _)

/-! ## The condition -/

/-- Every prefix that the segments match on their way through the text is of
one-byte characters. -/
def OneByteMatches : Bool → List Str → Str → Prop
  | _, [], _ => True
  | first, segment :: segments, remaining =>
      let seg := trimSlashes segment
      if seg = [] then OneByteMatches false segments remaining
      else match searchSegment first seg remaining with
        | none => True
        | some (slice, len) =>
            OneByte (slice.take len) ∧
              OneByteMatches false segments (trimStartMatches '/' (slice.drop len))

theorem searchSegment_le {first : Bool} {seg remaining slice : Str} {len : Nat}
    (h : searchSegment first seg remaining = some (slice, len)) : len ≤ slice.length := by
  unfold searchSegment at h
  split at h
  · obtain ⟨n, hn, heq⟩ := Option.map_eq_some_iff.mp h
    cases heq
    exact findSegmentMatch_le hn
  · obtain ⟨s, -, hs⟩ := List.exists_of_findSome?_eq_some h
    obtain ⟨n, hn, heq⟩ := Option.map_eq_some_iff.mp hs
    cases heq
    exact findSegmentMatch_le hn

/-- A match is sliced off exactly when it is of one-byte characters. -/
theorem sliceMatch_exact {slice : Str} {len : Nat} (hle : len ≤ slice.length) :
    (sliceMatch (some (slice, len))).Exact ↔ OneByte (slice.take len) := by
  have hslice : SliceTaken.Exact ⟨slice, len, some len⟩ ↔
      sliceFrom slice len = some (slice.drop len) := by
    constructor
    · rintro ⟨rest, hrest, hmatch⟩
      rw [hrest, hmatch len rfl]
    · intro h
      exact ⟨_, h, fun n hn => by rw [Option.some.inj hn]⟩
  rw [← sliceFrom_take_iff hle, ← hslice, sliceMatch, Sliced.take_exact]
  simp

theorem sliceSegments_value (first : Bool) (segments : List Str) (remaining : Str) :
    (sliceSegments first segments remaining).value = matchSegments first segments remaining := by
  induction segments generalizing first remaining with
  | nil => rfl
  | cons segment segments ih =>
      rw [sliceSegments, matchSegments]
      by_cases hseg : trimSlashes segment = []
      · simp only [if_pos hseg]
        exact ih false remaining
      · simp only [if_neg hseg, Sliced.andThen_value, (search_agrees _ _ _).value_eq]
        cases hsearch : searchSegment first (trimSlashes segment) remaining with
        | none => rfl
        | some found =>
            obtain ⟨slice, len⟩ := found
            simp only [sliceMatch, Sliced.take_value]
            cases sliceFrom slice len with
            | none => rfl
            | some rest => exact ih false _

theorem sliceSegments_exact_iff (first : Bool) (segments : List Str) (remaining : Str) :
    (sliceSegments first segments remaining).Exact ↔ OneByteMatches first segments remaining := by
  induction segments generalizing first remaining with
  | nil => simp [sliceSegments, OneByteMatches]
  | cons segment segments ih =>
      rw [sliceSegments, OneByteMatches]
      by_cases hseg : trimSlashes segment = []
      · simp only [if_pos hseg]
        exact ih false remaining
      · have hagrees := search_agrees first (trimSlashes segment) remaining
        simp only [if_neg hseg, Sliced.andThen_exact, hagrees.value_eq, hagrees.exact_iff]
        cases hsearch : searchSegment first (trimSlashes segment) remaining with
        | none => simp [sliceMatch]
        | some found =>
            obtain ⟨slice, len⟩ := found
            have hle := searchSegment_le hsearch
            rw [sliceMatch_exact hle]
            refine and_congr_right fun honeByte => ?_
            have hslice := (sliceFrom_take_iff hle).mpr honeByte
            simp only [sliceMatch, Sliced.take_value, hslice, Option.bind_some, Sliced.done_value,
              Option.some.injEq, forall_eq']
            exact ih false _

theorem matchSegments_isSome {first : Bool} {segments : List Str} {remaining : Str}
    (h : OneByteMatches first segments remaining) :
    matchSegments first segments remaining ≠ none := by
  induction segments generalizing first remaining with
  | nil => exact Option.some_ne_none _
  | cons segment segments ih =>
      rw [OneByteMatches] at h
      rw [matchSegments]
      by_cases hseg : trimSlashes segment = []
      · rw [if_pos hseg] at h
        simp only [if_pos hseg]
        exact ih h
      · rw [if_neg hseg] at h
        simp only [if_neg hseg]
        cases hsearch : searchSegment first (trimSlashes segment) remaining with
        | none => exact Option.some_ne_none _
        | some found =>
            obtain ⟨slice, len⟩ := found
            rw [hsearch] at h
            simp only [(sliceFrom_take_iff (searchSegment_le hsearch)).mpr h.1]
            exact ih h.2

/-- The byte-level matcher decides what the matcher over characters decides. -/
theorem wildcardMatchSliced_value (pattern text : Str) :
    (wildcardMatchSliced pattern text).value = wildcardMatch pattern text := by
  unfold wildcardMatchSliced wildcardMatch
  simp only
  split_ifs with hplain hone
  · rfl
  · rfl
  all_goals
    rw [Sliced.andThen_value, sliceSegments_value]
    cases matchSegments true (splitDoubleStar (toAsciiLowercase pattern))
      (toAsciiLowercase text) with
    | none => rfl
    | some found => cases found <;> rfl

theorem splitDoubleStar_of_no_star {pattern : Str} (h : '*' ∉ pattern) :
    splitDoubleStar pattern = [pattern] := by
  induction pattern with
  | nil => rfl
  | cons c pattern ih =>
      have hc : c ≠ '*' := fun heq => h (heq ▸ List.mem_cons_self)
      have hrest := ih fun hmem => h (List.mem_cons_of_mem _ hmem)
      rw [splitDoubleStar, hrest]
      intro s hcs
      exact absurd hcs hc

/-- No `**` and so no slice, or one-byte matches throughout. -/
def SlicesAligned (pattern text : Str) : Prop :=
  (splitDoubleStar (toAsciiLowercase pattern)).length = 1 ∨
    OneByteMatches true (splitDoubleStar (toAsciiLowercase pattern)) (toAsciiLowercase text)

/-- Nothing panics where every matched prefix is of one-byte characters. -/
theorem wildcardMatch_isSome_of_aligned {pattern text : Str} (h : SlicesAligned pattern text) :
    wildcardMatch pattern text ≠ none := by
  unfold SlicesAligned at h
  unfold wildcardMatch
  simp only
  split_ifs with hplain hone
  · simp
  · simp
  all_goals
    have hsome := matchSegments_isSome (h.resolve_left hone)
    split <;> simp_all

/-- Every slice is on a boundary inside the text and removes what was matched, and
so nothing panics, exactly when every matched prefix is of one-byte characters. -/
theorem wildcardMatchSliced_exact_iff (pattern text : Str) :
    ((wildcardMatchSliced pattern text).Exact ∧ wildcardMatch pattern text ≠ none) ↔
      SlicesAligned pattern text := by
  suffices hexact : (wildcardMatchSliced pattern text).Exact ↔ SlicesAligned pattern text by
    rw [hexact]
    exact and_iff_left_of_imp wildcardMatch_isSome_of_aligned
  unfold SlicesAligned wildcardMatchSliced
  simp only
  split_ifs with hplain hone
  · simp [splitDoubleStar_of_no_star hplain.1]
  · simp [hone]
  all_goals
    rw [or_iff_right hone, Sliced.andThen_exact, sliceSegments_exact_iff]
    refine and_iff_left_of_imp fun _ found _ => ?_
    cases found <;> exact Sliced.done_exact _

/-! ## Texts of one-byte characters -/

theorem mem_afterSlashes_suffix {s slice : Str} (h : slice ∈ afterSlashes s) : slice <:+ s := by
  induction s with
  | nil => cases h
  | cons c s ih =>
      rw [afterSlashes] at h
      split at h
      · rcases List.mem_cons.mp h with rfl | h
        · exact List.suffix_cons _ _
        · exact (ih h).trans (List.suffix_cons _ _)
      · exact (ih h).trans (List.suffix_cons _ _)

theorem searchSegment_suffix {first : Bool} {seg remaining slice : Str} {len : Nat}
    (h : searchSegment first seg remaining = some (slice, len)) : slice <:+ remaining := by
  unfold searchSegment at h
  split at h
  · obtain ⟨n, -, heq⟩ := Option.map_eq_some_iff.mp h
    cases heq
    exact List.suffix_rfl
  · obtain ⟨s, hs, hfound⟩ := List.exists_of_findSome?_eq_some h
    obtain ⟨n, -, heq⟩ := Option.map_eq_some_iff.mp hfound
    cases heq
    rcases List.mem_cons.mp hs with rfl | hs
    · exact List.suffix_rfl
    · exact mem_afterSlashes_suffix hs

theorem OneByteMatches.of_oneByte {first : Bool} {segments : List Str} {remaining : Str}
    (h : OneByte remaining) : OneByteMatches first segments remaining := by
  induction segments generalizing first remaining with
  | nil => trivial
  | cons segment segments ih =>
      rw [OneByteMatches]
      split
      · exact ih h
      · split
        · trivial
        · next slice len hsearch =>
          have hslice : OneByte slice := fun c hc => h c ((searchSegment_suffix hsearch).subset hc)
          refine ⟨fun c hc => hslice c (List.mem_of_mem_take hc), ih fun c hc => hslice c ?_⟩
          exact List.mem_of_mem_drop ((List.dropWhile_suffix _).subset hc)

/-- No pattern makes the matcher panic on a text of one-byte characters. -/
theorem wildcardMatch_isSome_of_oneByte {pattern text : Str} (h : OneByte (toAsciiLowercase text)) :
    wildcardMatch pattern text ≠ none :=
  wildcardMatch_isSome_of_aligned (.inr (.of_oneByte h))

/-! ## A match that ends inside a character -/

theorem accented_prefix_panics :
    ¬ ∀ pattern text : Str,
      (wildcardMatchSliced pattern text).Exact ∧ wildcardMatch pattern text ≠ none := by
  intro h
  exact (h "é**".toList "é".toList).2 (by decide)

end AbixioUi
