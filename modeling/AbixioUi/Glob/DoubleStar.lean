import AbixioUi.Glob.Blocks

/-! # Scanning for the blocks

The matcher takes the shortest match of each segment at the first boundary that has one,
and goes on behind it. Where these matches are of whole components, the scan decides
what the pattern means.
-/

namespace AbixioUi

open Foundation Foundation.Glob

/-! ## The meaning of a pattern -/

/-- A `**` takes any components, another component of the pattern takes one. -/
def PathMatches (pattern : List (Token Str)) (path : List Str) : Prop :=
  Matches (SegmentMatches false) (fun _ => True) pattern path

/-- The whole path matches the pattern; letters match in either case. -/
def GlobMatches (pattern text : Str) : Prop :=
  PathMatches ((pathComponents (toAsciiLowercase pattern)).map pathToken)
    (pathComponents (toAsciiLowercase text))

/-! ## The scan over components -/

/-- The first components match the block one by one. -/
def blockFits (block path : List Str) : Bool :=
  decide (block.length ≤ path.length) &&
    (block.zip path).all fun pair => wildcardMatchSegment pair.1 pair.2 false

/-- Where a block fits: at the start, or first from there on. -/
def placeBlock (first : Bool) (block path : List Str) : Option (List Str) :=
  (if first then [path] else path.tails).find? (blockFits block)

/-- The last components match the block one by one. -/
def endsIn (block path : List Str) : Bool :=
  decide (block.length ≤ path.length) && blockFits block (path.drop (path.length - block.length))

/-- Each segment is found where whole components match it, if anywhere; and the last one,
unless nothing is searched for, is found to end the path exactly where the path ends in
components that match it. -/
def ScanWhole : Bool → List Str → Str → List Str → Prop
  | _, [], _, _ => True
  | first, segment :: segments, remaining, path =>
      let block := searchedBlock segment
      let found := searchSegment first (trimSlashes segment) remaining
      if block = [] then ScanWhole false segments remaining path
      else if segments = [] then
        if endsIn block path then ∃ slice, found = some (slice, slice.length)
        else ∀ slice len, found = some (slice, len) → (slice.drop len).all (· == '/') = false
      else
        found.map (fun match' => pathComponents match'.1) = placeBlock first block path ∧
          ∀ slice len, found = some (slice, len) →
            ScanWhole false segments (trimStartMatches '/' (slice.drop len))
              ((pathComponents slice).drop block.length)

section Placing

variable {block path found : List Str}

theorem blockFits_iff : blockFits block path = true ↔ Begins (SegmentMatches false) block path := by
  induction block generalizing path with
  | nil => simp [blockFits]
  | cons p block ih =>
      cases path with
      | nil => simp [blockFits]
      | cons c path =>
          have hcons : blockFits (p :: block) (c :: path) =
              (wildcardMatchSegment p c false && blockFits block path) := by
            simp only [blockFits, List.length_cons, List.zip_cons_cons, List.all_cons,
              Nat.add_le_add_iff_right]
            exact Bool.and_left_comm _ _ _
          rw [hcons, Bool.and_eq_true, ih, wildcardMatchSegment_iff_matches, begins_cons_iff]

theorem endsIn_iff : endsIn block path = true ↔
    ∃ last, last <:+ path ∧ List.Forall₂ (SegmentMatches false) block last := by
  rw [endsIn, Bool.and_eq_true, decide_eq_true_eq, blockFits_iff, Begins]
  constructor
  · rintro ⟨hle, hfits⟩
    refine ⟨_, List.drop_suffix (path.length - block.length) path, ?_⟩
    rwa [List.take_of_length_le (by rw [List.length_drop]; omega)] at hfits
  · rintro ⟨last, ⟨front, rfl⟩, hblock⟩
    have hlength := hblock.length_eq
    rw [List.length_append, hlength, Nat.add_sub_cancel, List.drop_left, ← hlength]
    refine ⟨by omega, ?_⟩
    rwa [hlength, List.take_length]

/-- The first of the tails that satisfy a predicate is the longest. -/
theorem find_tails {p : List Str → Bool} (h : path.tails.find? p = some found) :
    found <:+ path ∧ p found = true ∧
      ∀ other, other <:+ path → p other = true → other <:+ found := by
  induction path with
  | nil =>
      rw [List.tails, List.find?_singleton] at h
      split at h
      next hp =>
        obtain rfl := Option.some.inj h
        exact ⟨List.suffix_rfl, hp, fun other hother _ => hother⟩
      next => cases h
  | cons c path ih =>
      rw [List.tails_cons, List.find?_cons] at h
      split at h
      next hp =>
        obtain rfl := Option.some.inj h
        exact ⟨List.suffix_rfl, hp, fun other hother _ => hother⟩
      next hp =>
        obtain ⟨hsuffix, hfound, hfirst⟩ := ih h
        refine ⟨hsuffix.trans (List.suffix_cons c path), hfound, fun other hother hpo => ?_⟩
        rcases List.suffix_cons_iff.mp hother with rfl | hother
        · rw [hp] at hpo
          cases hpo
        · exact hfirst other hother hpo

end Placing

/-! ## The scan decides what the pattern means -/

/-- The scan gets through all segments, and the last one, unless it is empty, leaves
only separators. -/
def Accepts (first : Bool) (segments : List Str) (remaining : Str) : Prop :=
  ∃ rest, matchSegments first segments remaining = some (some rest) ∧
    (segments.getLastD [] ≠ [] → rest.all (· == '/') = true)

section Scan

variable {first : Bool} {segment : Str} {segments : List Str} {remaining slice : Str} {len : Nat}
  {path : List Str}

theorem all_trimStartMatches (s : Str) :
    (trimStartMatches '/' s).all (· == '/') = s.all (· == '/') := by
  conv_rhs => rw [← List.takeWhile_append_dropWhile (p := (· == '/')) (l := s)]
  rw [List.all_append, List.all_takeWhile, Bool.true_and]
  rfl

theorem searchedBlock_eq_nil_iff : searchedBlock segment = [] ↔ trimSlashes segment = [] := by
  rw [searchedBlock]
  split
  next h => simp [h]
  next h => simp [h, pathComponents_ne_nil]

theorem getLastD_cons_of_ne_nil (segment : Str) (hne : segments ≠ []) :
    (segment :: segments).getLastD [] = segments.getLastD [] := by
  cases segments with
  | nil => exact absurd rfl hne
  | cons _ _ => rfl

theorem accepts_skip (h : searchedBlock segment = []) (hne : segments ≠ []) :
    Accepts first (segment :: segments) remaining ↔ Accepts false segments remaining := by
  rw [Accepts, Accepts, matchSegments, getLastD_cons_of_ne_nil segment hne]
  simp only [searchedBlock_eq_nil_iff.mp h, if_true]

theorem not_accepts_of_not_found (hblock : searchedBlock segment ≠ [])
    (h : searchSegment first (trimSlashes segment) remaining = none) :
    ¬ Accepts first (segment :: segments) remaining := by
  rintro ⟨rest, hmatch, -⟩
  rw [matchSegments] at hmatch
  simp only [mt searchedBlock_eq_nil_iff.mpr hblock, if_false, h] at hmatch
  cases hmatch

/-- A match is sliced off a path of one-byte characters. -/
theorem sliceFrom_found (hbytes : OneByte remaining)
    (h : searchSegment first (trimSlashes segment) remaining = some (slice, len)) :
    sliceFrom slice len = some (slice.drop len) := by
  refine (sliceFrom_take_iff (searchSegment_le h)).mpr fun c hc => ?_
  exact hbytes c ((searchSegment_suffix h).subset (List.mem_of_mem_take hc))

theorem oneByte_rest (hbytes : OneByte remaining)
    (h : searchSegment first (trimSlashes segment) remaining = some (slice, len)) :
    OneByte (trimStartMatches '/' (slice.drop len)) := fun c hc =>
  hbytes c ((searchSegment_suffix h).subset
    (List.mem_of_mem_drop ((List.dropWhile_suffix _).subset hc)))

theorem accepts_found (hbytes : OneByte remaining) (hblock : searchedBlock segment ≠ [])
    (h : searchSegment first (trimSlashes segment) remaining = some (slice, len))
    (hne : segments ≠ []) :
    Accepts first (segment :: segments) remaining ↔
      Accepts false segments (trimStartMatches '/' (slice.drop len)) := by
  rw [Accepts, Accepts, matchSegments, getLastD_cons_of_ne_nil segment hne]
  simp only [mt searchedBlock_eq_nil_iff.mpr hblock, if_false, h, sliceFrom_found hbytes h]

/-- The last segment ends the path, separators aside. -/
theorem accepts_last (hbytes : OneByte remaining) (hblock : searchedBlock segment ≠ [])
    (h : searchSegment first (trimSlashes segment) remaining = some (slice, len)) :
    Accepts first [segment] remaining ↔ (slice.drop len).all (· == '/') = true := by
  have hsegment : segment ≠ [] := by
    rintro rfl
    exact hblock rfl
  rw [Accepts, matchSegments]
  simp only [mt searchedBlock_eq_nil_iff.mpr hblock, if_false, h, sliceFrom_found hbytes h,
    matchSegments, Option.some.injEq, exists_eq_left', List.getLastD_cons, List.getLastD_nil]
  rw [all_trimStartMatches]
  exact forall_prop_of_true hsegment

/-- What the segments mean behind a `**`. -/
def TailMatches (segments : List Str) (path : List Str) : Prop :=
  PathMatches (.many :: blocksPattern (segments.map searchedBlock)) path

theorem free (c : Str) : (fun _ : Str => True) c := trivial

theorem tailMatches_skip (h : searchedBlock segment = []) (hne : segments ≠ []) :
    TailMatches (segment :: segments) path ↔ TailMatches segments path := by
  have hmap : segments.map searchedBlock ≠ [] := by simpa using hne
  rw [TailMatches, List.map_cons, h, blocksPattern_cons _ hmap]
  exact matches_many_many_iff free

theorem tailMatches_placed {found : List Str} (hne : segments ≠ [])
    (h : placeBlock false (searchedBlock segment) path = some found) :
    TailMatches (segment :: segments) path ↔
      TailMatches segments (found.drop (searchedBlock segment).length) := by
  have hmap : segments.map searchedBlock ≠ [] := by simpa using hne
  obtain ⟨hsuffix, hfits, hfirst⟩ := find_tails h
  rw [TailMatches, List.map_cons, blocksPattern_cons _ hmap]
  exact matches_many_block_iff free hsuffix (blockFits_iff.mp hfits) fun other hother hbegins =>
    hfirst other hother (blockFits_iff.mpr hbegins)

theorem not_tailMatches (hne : segments ≠ [])
    (h : placeBlock false (searchedBlock segment) path = none) :
    ¬ TailMatches (segment :: segments) path := by
  have hmap : segments.map searchedBlock ≠ [] := by simpa using hne
  rw [TailMatches, List.map_cons, blocksPattern_cons _ hmap]
  refine not_matches_many_block free fun other hother hbegins => ?_
  exact List.find?_eq_none.mp h other ((List.mem_tails _ _).mpr hother) (blockFits_iff.mpr hbegins)

/-- The last block ends the path. -/
theorem tailMatches_last :
    TailMatches [segment] path ↔ endsIn (searchedBlock segment) path = true := by
  rw [endsIn_iff, TailMatches, PathMatches, matches_many_iff_suffix free]
  simp only [List.map_cons, List.map_nil, blocksPattern, matches_fixed_iff]

/-- Where the segments are found as whole components, the scan behind a `**` decides. -/
theorem scan_decides (hne : segments ≠ [])
    (hlast : ∀ last, segments.getLast? = some last → searchedBlock last = [] → last = [])
    (hbytes : OneByte remaining) (hscan : ScanWhole false segments remaining path) :
    Accepts false segments remaining ↔ TailMatches segments path := by
  induction segments generalizing remaining path with
  | nil => exact absurd rfl hne
  | cons segment segments ih =>
      by_cases hblock : searchedBlock segment = []
      · by_cases hrest : segments = []
        · subst hrest
          obtain rfl := hlast segment rfl hblock
          refine iff_of_true ⟨remaining, rfl, fun h => absurd rfl h⟩ ?_
          exact tailMatches_last.mpr (endsIn_iff.mpr ⟨[], List.nil_suffix, .nil⟩)
        · rw [accepts_skip hblock hrest, tailMatches_skip hblock hrest]
          rw [ScanWhole] at hscan
          simp only [hblock, if_true] at hscan
          exact ih hrest (by simpa [List.getLast?_cons_of_ne_nil hrest] using hlast) hbytes hscan
      · rw [ScanWhole] at hscan
        by_cases hrest : segments = []
        · subst hrest
          simp only [hblock, if_false, if_true] at hscan
          rw [tailMatches_last]
          split at hscan
          next hends =>
            obtain ⟨slice, hfound⟩ := hscan
            rw [accepts_last hbytes hblock hfound, List.drop_length]
            simp [hends]
          next hends =>
            refine iff_of_false ?_ hends
            cases hfound : searchSegment false (trimSlashes segment) remaining with
            | none => exact not_accepts_of_not_found hblock hfound
            | some match' =>
                obtain ⟨slice, len⟩ := match'
                rw [accepts_last hbytes hblock hfound, hscan slice len hfound]
                exact Bool.false_ne_true
        · simp only [hblock, hrest, if_false] at hscan
          obtain ⟨hplace, hscan⟩ := hscan
          cases hfound : searchSegment false (trimSlashes segment) remaining with
          | none =>
              rw [hfound] at hplace
              exact iff_of_false (not_accepts_of_not_found hblock hfound)
                (not_tailMatches hrest hplace.symm)
          | some match' =>
              obtain ⟨slice, len⟩ := match'
              rw [hfound] at hplace
              rw [accepts_found hbytes hblock hfound hrest, tailMatches_placed hrest hplace.symm]
              exact ih hrest (by simpa [List.getLast?_cons_of_ne_nil hrest] using hlast)
                (oneByte_rest hbytes hfound) (hscan slice len hfound)

/-- The first segment is found at the start or not at all. -/
theorem scan_decides_first (hne : segments ≠ [])
    (hlast : ∀ last, segments.getLast? = some last → searchedBlock last = [] → last = [])
    (hbytes : OneByte remaining) (hscan : ScanWhole true (segment :: segments) remaining path) :
    Accepts true (segment :: segments) remaining ↔
      PathMatches (blocksPattern ((segment :: segments).map searchedBlock)) path := by
  have hmap : segments.map searchedBlock ≠ [] := by simpa using hne
  rw [List.map_cons, blocksPattern_cons _ hmap]
  rw [ScanWhole] at hscan
  by_cases hblock : searchedBlock segment = []
  · simp only [hblock, if_true] at hscan
    rw [accepts_skip hblock hne, hblock]
    exact scan_decides hne hlast hbytes hscan
  · simp only [hblock, hne, if_false] at hscan
    obtain ⟨hplace, hscan⟩ := hscan
    rw [placeBlock, if_pos rfl, List.find?_singleton] at hplace
    rw [PathMatches, matches_block_iff, ← blockFits_iff]
    cases hfound : searchSegment true (trimSlashes segment) remaining with
    | none =>
        rw [hfound] at hplace
        refine iff_of_false (not_accepts_of_not_found hblock hfound) fun h => ?_
        rw [if_pos h.1] at hplace
        cases hplace
    | some match' =>
        obtain ⟨slice, len⟩ := match'
        rw [hfound] at hplace
        split at hplace
        next hfits =>
          have hslice : pathComponents slice = path := Option.some.inj hplace
          rw [accepts_found hbytes hblock hfound hne,
            scan_decides hne hlast (oneByte_rest hbytes hfound) (hscan slice len hfound), hslice]
          exact (and_iff_right hfits).symm
        next => cases hplace

end Scan

/-! ## Patterns and paths -/

/-- No block of the pattern starts or ends with an empty component. -/
def FilledBlocks (pattern : Str) : Prop :=
  ∀ block ∈ blocks (pathComponents pattern), trimEmpty block = block

/-- Trimming drops no component of the pattern, and the scan takes whole components. -/
structure ScansWhole (pattern text : Str) : Prop where
  doubled : doubleStar ∈ pathComponents (toAsciiLowercase pattern)
  filled : FilledBlocks (toAsciiLowercase pattern)
  scan : ScanWhole true (splitDoubleStar (toAsciiLowercase pattern)) (toAsciiLowercase text)
    (pathComponents (toAsciiLowercase text))

section Patterns

variable {pattern text : Str}

/-- The blocks have the components of the pattern. -/
theorem forall_mem_blocks {P : Str → Prop} {components : List Str} (h : ∀ c ∈ components, P c) :
    ∀ block ∈ blocks components, ∀ c ∈ block, P c := by
  induction components with
  | nil => simp [blocks]
  | cons c components ih =>
      obtain ⟨hc, hcomponents⟩ := List.forall_mem_cons.mp h
      have hblocks := ih hcomponents
      rw [blocks]
      split
      next => exact List.forall_mem_cons.mpr ⟨by simp, hblocks⟩
      next =>
        cases hcases : blocks components with
        | nil => exact absurd hcases (blocks_ne_nil components)
        | cons block rest =>
            rw [hcases] at hblocks
            obtain ⟨hblock, hrest⟩ := List.forall_mem_cons.mp hblocks
            exact List.forall_mem_cons.mpr ⟨List.forall_mem_cons.mpr ⟨hc, hblock⟩, hrest⟩

theorem two_le_blocks {components : List Str} (h : doubleStar ∈ components) :
    2 ≤ (blocks components).length := by
  induction components with
  | nil => cases h
  | cons c components ih =>
      rw [blocks]
      split
      next =>
        have hpos := List.length_pos_iff.mpr (blocks_ne_nil components)
        rw [List.length_cons]
        omega
      next hc =>
        rw [List.length_modifyHead]
        exact ih ((List.mem_cons.mp h).resolve_left (Ne.symm hc))

/-- The segments of a pattern are the texts of its blocks. -/
theorem splitDoubleStar_eq {pattern : Str} (h : DelimitsDoubleStars (pathComponents pattern)) :
    splitDoubleStar pattern = segmentTexts false (blocks (pathComponents pattern)) := by
  conv_lhs => rw [← joinComponents_components pattern]
  exact splitDoubleStar_join (pathComponents_ne_nil pattern) h

theorem map_searchedBlock_split (h : DelimitsDoubleStars (pathComponents pattern)) :
    (splitDoubleStar pattern).map searchedBlock =
      (blocks (pathComponents pattern)).map trimEmpty := by
  rw [splitDoubleStar_eq h]
  exact map_searchedBlock false
    (forall_mem_blocks fun c hc => not_slash_mem_of_mem hc)

theorem map_searchedBlock_filled (h : DelimitsDoubleStars (pathComponents pattern))
    (hfilled : FilledBlocks pattern) :
    (splitDoubleStar pattern).map searchedBlock = blocks (pathComponents pattern) :=
  (map_searchedBlock_split h).trans ((List.map_congr_left hfilled).trans (List.map_id _))

theorem two_le_splitDoubleStar (h : DelimitsDoubleStars (pathComponents pattern))
    (hmem : doubleStar ∈ pathComponents pattern) : 2 ≤ (splitDoubleStar pattern).length := by
  have hlength := congrArg List.length (map_searchedBlock_split h)
  rw [List.length_map, List.length_map] at hlength
  have hblocks := two_le_blocks hmem
  omega

/-- With a `**` in the pattern, the scan decides. -/
theorem wildcardMatch_iff_accepts (h : DelimitsDoubleStars (pathComponents pattern))
    (hmem : doubleStar ∈ pathComponents (toAsciiLowercase pattern)) :
    wildcardMatch pattern text = some true ↔
      Accepts true (splitDoubleStar (toAsciiLowercase pattern)) (toAsciiLowercase text) := by
  have hstar : '*' ∈ toAsciiLowercase pattern := splitAtChars_mem_subset hmem '*' (by decide)
  have hlength : (splitDoubleStar (toAsciiLowercase pattern)).length ≠ 1 := by
    have := two_le_splitDoubleStar h.toLower hmem
    omega
  rw [wildcardMatch, Accepts]
  simp only [hstar, not_true_eq_false, false_and, if_false, hlength]
  cases matchSegments true (splitDoubleStar (toAsciiLowercase pattern)) (toAsciiLowercase text) with
  | none => simp
  | some found =>
      cases found with
      | none => simp
      | some rest =>
          simp

/-- A segment that searches for nothing at the end is empty. -/
theorem last_segment_empty (h : DelimitsDoubleStars (pathComponents pattern))
    (hmem : doubleStar ∈ pathComponents pattern) (hfilled : FilledBlocks pattern) {last : Str}
    (hlast : (splitDoubleStar pattern).getLast? = some last) (hblock : searchedBlock last = []) :
    last = [] := by
  have hbs : (blocks (pathComponents pattern)).getLast? = some [] := by
    rw [← map_searchedBlock_filled h hfilled, List.getLast?_map, hlast, Option.map_some, hblock]
  have hnil := (segmentTexts_last false (.inr (two_le_blocks hmem))).mpr hbs
  rw [← splitDoubleStar_eq h, hlast] at hnil
  exact Option.some.inj hnil

/-- Where the scan takes whole components, the matcher decides what the pattern means. -/
theorem wildcardMatch_of_scansWhole (h : DelimitsDoubleStars (pathComponents pattern))
    (hbytes : OneByte (toAsciiLowercase text)) (hscan : ScansWhole pattern text) :
    wildcardMatch pattern text = some true ↔ GlobMatches pattern text := by
  have hlower := h.toLower
  obtain ⟨hmem, hfilled, hscan⟩ := hscan
  rw [wildcardMatch_iff_accepts h hmem, GlobMatches, map_pathToken,
    ← map_searchedBlock_filled hlower hfilled]
  have hlast := fun last => @last_segment_empty _ hlower hmem hfilled last
  have hlength := two_le_splitDoubleStar hlower hmem
  cases hsplit : splitDoubleStar (toAsciiLowercase pattern) with
  | nil => exact absurd hsplit (splitDoubleStar_ne_nil _)
  | cons segment segments =>
      rw [hsplit] at hlast hlength hscan
      have hne : segments ≠ [] := by
        rintro rfl
        simp at hlength
      refine scan_decides_first hne (fun last hlast' => hlast last ?_) hbytes hscan
      rwa [List.getLast?_cons_of_ne_nil hne]

end Patterns

end AbixioUi
