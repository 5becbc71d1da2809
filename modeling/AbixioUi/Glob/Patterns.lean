import AbixioUi.Glob.Shortest

/-! # Patterns that are right on every path

A scan that decides rightly on the paths it gets through searches for one block only, in
front of a `**`: each further block would share a component with the one before. The
pattern ends in the `**`, or such a path could go on to a later match, and what the scan
matches must be as good when it is longer.
-/

namespace AbixioUi

open Foundation Foundation.Glob

/-- Characters of one byte that folding the case leaves alone. -/
def Folded (s : Str) : Prop := ∀ c ∈ s, c.utf8Size = 1 ∧ c.toLower = c

instance (s : Str) : Decidable (Folded s) := List.decidableBAll _ s

theorem folded_letter : Folded ['a'] := by decide

/-- The scan of the segments decides what the blocks mean, on every folded path. -/
structure RightScan (segments : List Str) (bs : List (List Str)) : Prop where
  searched : segments.map searchedBlock = bs.map trimEmpty
  last : segments.getLastD [] = [] ↔ bs.getLast? = some []
  many : 2 ≤ bs.length
  slashless : ∀ block ∈ bs, ∀ c ∈ block, '/' ∉ c
  folded : ∀ block ∈ bs, ∀ c ∈ block, Folded c
  right : ∀ text, Folded text →
    (Accepts true segments text ↔ PathMatches (blocksPattern bs) (pathComponents text))

namespace RightScan

variable {segments : List Str} {bs : List (List Str)} {q : Char} {y : Str}

section Glued

variable (h : RightScan segments bs)

include h

theorem folded_glued (hq : q.utf8Size = 1 ∧ q.toLower = q) :
    Folded (glued q (bs.map trimEmpty)) := by
  intro c hc
  obtain ⟨searched, hsearched, hc⟩ := List.mem_flatMap.mp hc
  obtain ⟨block, hblock, rfl⟩ := List.mem_map.mp hsearched
  refine forall_mem_fill (P := fun c => c.utf8Size = 1 ∧ c.toLower = c) hq (by decide) ?_ c hc
  exact fun d hd => h.folded block hblock d ((infix_of_trimEmpty block).subset hd)

/-- On the path of all segments, what stands behind them decides. -/
theorem matches_glued_iff (hq : q.utf8Size = 1 ∧ q.toLower = q) (hsep : q ≠ '/')
    (hy : y.head? ≠ some '/') (hfolded : Folded y) :
    PathMatches (blocksPattern bs) (pathComponents (glued q (bs.map trimEmpty) ++ y)) ↔
      (bs.getLast? ≠ some [] → y = []) := by
  have htext : Folded (glued q (bs.map trimEmpty) ++ y) :=
    List.forall_mem_append.mpr ⟨h.folded_glued hq, hfolded⟩
  rw [← h.right _ htext]
  rw [← h.searched] at htext ⊢
  rw [accepts_glued hsep hy fun c hc => (htext c hc).1, ne_eq, h.last]

theorem length_glued (hsep : q ≠ '/') (y : Str) :
    (pathComponents (glued q (bs.map trimEmpty) ++ y)).length +
        ((bs.map trimEmpty).filter (· ≠ [])).length =
      (bs.map trimEmpty).flatten.length + (pathComponents y).length := by
  refine length_pathComponents_glued hsep ?_ y
  intro searched hsearched c hc
  obtain ⟨block, hblock, rfl⟩ := List.mem_map.mp hsearched
  exact h.slashless block hblock c ((infix_of_trimEmpty block).subset hc)

/-- A last block would be matched again behind the segments. -/
theorem last_nil : bs.getLast? = some [] := by
  by_contra hlast
  obtain ⟨block, hblock⟩ : ∃ block, bs.getLast? = some block := by
    refine ⟨_, List.getLast?_eq_some_getLast fun hnil => ?_⟩
    have hmany := h.many
    rw [hnil] at hmany
    exact absurd hmany (by decide)
  have hne : block ≠ [] := by
    rintro rfl
    exact hlast hblock
  have hplain : ('a').utf8Size = 1 ∧ ('a').toLower = 'a' := by decide
  obtain ⟨front, hfront⟩ := blocksPattern_last h.many hblock
  generalize hpath : glued 'a' (bs.map trimEmpty) = path
  have hfolded : Folded path := hpath ▸ h.folded_glued hplain
  have hmatch := (h.matches_glued_iff hplain (by decide) (y := []) (by simp) (by simp [Folded])).mpr
    fun _ => rfl
  rw [hpath, List.append_nil, PathMatches, hfront] at hmatch
  have hlonger : PathMatches (blocksPattern bs) (pathComponents (path ++ 'a' :: '/' :: path)) := by
    rw [show path ++ 'a' :: '/' :: path = (path ++ ['a']) ++ '/' :: path by simp,
      pathComponents_append_separator, PathMatches, hfront]
    exact hmatch.again free hne (dropLast_pathComponents_append _ _)
  have hplain' : Folded ('a' :: '/' :: path) :=
    List.forall_mem_cons.mpr ⟨hplain, List.forall_mem_cons.mpr ⟨by decide, hfolded⟩⟩
  have hnothing := (h.matches_glued_iff hplain (by decide) (by simp) hplain').mp
  rw [hpath] at hnothing
  exact absurd (hnothing hlonger hlast) (List.cons_ne_nil _ _)

/-- With a `**` behind the segments, anything may follow them. -/
theorem matches_glued (hq : q.utf8Size = 1 ∧ q.toLower = q) (hsep : q ≠ '/')
    (hy : y.head? ≠ some '/') (hfolded : Folded y) :
    PathMatches (blocksPattern bs) (pathComponents (glued q (bs.map trimEmpty) ++ y)) :=
  (h.matches_glued_iff hq hsep hy hfolded).mpr fun hlast => absurd h.last_nil hlast

/-- Two blocks would share a component. -/
theorem single_searched : ((bs.map trimEmpty).filter (· ≠ [])).length ≤ 1 := by
  have hmatch := h.matches_glued (q := 'a') (y := []) (by decide) (by decide) (by simp)
    (by simp [Folded])
  have hlength := hmatch.length_ones_le
  have hglued := h.length_glued (q := 'a') (by decide) []
  have htrim := length_flatten_map_trimEmpty bs
  rw [ones_blocksPattern] at hlength
  rw [pathComponents_of_no_slash List.not_mem_nil, List.length_singleton] at hglued
  omega

/-- A component that trimming drops would share one with what follows it. -/
theorem filled : ∀ block ∈ bs, trimEmpty block = block := by
  have hmatch := h.matches_glued (q := 'a') (y := ['a']) (by decide) (by decide) (by decide)
    folded_letter
  by_cases hnone : (bs.map trimEmpty).filter (· ≠ []) = []
  · -- Nothing is searched for: a component would match the one that the path has.
    have hempty : ∀ block ∈ bs, trimEmpty block = [] := by
      intro block hblock
      by_contra hne
      exact List.filter_eq_nil_iff.mp hnone _ (List.mem_map_of_mem hblock) (by simpa using hne)
    have hglued : glued 'a' (bs.map trimEmpty) = [] := by
      rw [glued, List.flatMap_eq_nil_iff]
      intro searched hsearched
      obtain ⟨block, hblock, rfl⟩ := List.mem_map.mp hsearched
      rw [hempty block hblock]
      rfl
    intro block hblock
    rw [hempty block hblock]
    symm
    refine List.eq_nil_iff_forall_not_mem.mpr fun c hc => ?_
    have hones : c ∈ ones (blocksPattern bs) := by
      rw [ones_blocksPattern]
      exact List.mem_flatten_of_mem hblock hc
    rw [hglued, List.nil_append] at hmatch
    obtain ⟨a, ha, haccepts⟩ := hmatch.exists_accepts hones
    obtain rfl := eq_nil_of_trimEmpty_nil (hempty block hblock) c hc
    obtain rfl := matches_nil_iff.mp haccepts
    exact absurd ha (by decide)
  · refine trimEmpty_of_length ?_
    have hpos := List.length_pos_iff.mpr hnone
    have hlength := hmatch.length_ones_le
    have hglued := h.length_glued (q := 'a') (by decide) ['a']
    have hone : pathComponents ['a'] = [['a']] := pathComponents_of_no_slash (by decide)
    rw [ones_blocksPattern] at hlength
    rw [hone, List.length_singleton] at hglued
    omega

theorem map_trimEmpty : bs.map trimEmpty = bs :=
  (List.map_congr_left h.filled).trans (List.map_id bs)

theorem single : (bs.filter (· ≠ [])).length ≤ 1 := by
  have hsingle := h.single_searched
  rwa [h.map_trimEmpty] at hsingle

/-- A last component that is not open-ended would end inside the path's. -/
theorem opened {block : List Str} (hblock : block ∈ bs) {c : Str} (hc : block.getLast? = some c) :
    OpenEnded c := by
  by_contra hclosed
  have hne : block ≠ [] := by
    rintro rfl
    cases hc
  obtain ⟨q, hq, hsep, hliteral⟩ := exists_other_than (c.rdropWhile isWildcard).getLast?
  have hquery : Folded [q] := by simpa [Folded] using hq
  have hmatch := h.matches_glued (y := [q]) hq hsep (by simpa using hsep) hquery
  have hglued := h.length_glued hsep [q]
  have hone : pathComponents [q] = [[q]] := pathComponents_of_no_slash (by simpa using hsep.symm)
  rw [h.map_trimEmpty] at hmatch hglued
  -- The block is the only one, and the path has as many components as it.
  have honly : bs.filter (· ≠ []) = [block] := by
    have hmem : block ∈ bs.filter (· ≠ []) := List.mem_filter.mpr ⟨hblock, by simpa using hne⟩
    have hsingle := h.single
    have hpos := List.length_pos_of_mem hmem
    obtain ⟨other, hother⟩ := List.length_eq_one_iff.mp (Nat.le_antisymm hsingle hpos)
    rw [hother, List.mem_singleton] at hmem
    rw [hother, hmem]
  rw [honly, hone, List.length_singleton, List.length_singleton] at hglued
  have hforall := hmatch.forall₂_ones (by rw [ones_blocksPattern]; omega)
  have hflatten : bs.flatten = block := by
    rw [← List.flatten_filter_ne_nil, honly, List.flatten_singleton]
  have hfill : glued q bs = fill q block := by
    rw [← glued_filter, honly, glued, List.flatMap_singleton]
  rw [ones_blocksPattern, hflatten, hfill] at hforall
  refine not_matches_fill hsep (h.slashless block hblock) hc hclosed hliteral
    (segmentMatches_iff_components.mpr ?_)
  rwa [pathComponents_join hne (h.slashless block hblock)]

end Glued

end RightScan

/-! ## Right on every path -/

/-- The matcher returns true exactly where the whole path matches the pattern. -/
def DecidesRightly (pattern text : Str) : Prop :=
  wildcardMatch pattern text = some true ↔ GlobMatches pattern text

section Folding

variable {pattern text : Str}

theorem Folded.oneByte (h : Folded text) : OneByte text := fun c hc => (h c hc).1

theorem Folded.toLower_eq (h : Folded text) : toAsciiLowercase text = text :=
  (List.map_congr_left fun c hc => (h c hc).2).trans (List.map_id text)

theorem folded_toLower (h : OneByte text) : Folded (toAsciiLowercase text) := by
  intro d hd
  obtain ⟨c, hc, rfl⟩ := List.mem_map.mp hd
  refine ⟨?_, toLower_toLower c⟩
  rcases toLower_cases c with heq | ⟨-, hhigh, hlower⟩
  · rw [heq]
    exact h c hc
  · rw [Char.utf8Size_eq_one_iff, UInt32.le_iff_toNat_le]
    change c.toLower.toNat ≤ 127
    omega

end Folding

section Undoubled

variable {pattern text : Str}

theorem blocks_of_not_mem {components : List Str} (h : doubleStar ∉ components) :
    blocks components = [components] := by
  induction components with
  | nil => rfl
  | cons c components ih =>
      obtain ⟨hc, hcomponents⟩ := List.ne_and_not_mem_of_not_mem_cons h
      rw [blocks, if_neg (Ne.symm hc), ih hcomponents]
      rfl

theorem globMatches_of_not_mem (h : doubleStar ∉ pathComponents (toAsciiLowercase pattern)) :
    GlobMatches pattern text ↔
      SegmentMatches false (toAsciiLowercase pattern) (toAsciiLowercase text) := by
  rw [GlobMatches, map_pathToken, blocks_of_not_mem h, PathMatches, blocksPattern,
    matches_fixed_iff, segmentMatches_iff_components]

/-- Every wildcard written out as a separator. -/
def crossed (pattern : Str) : Str := pattern.map fun x => if isWildcard x then '/' else x

theorem crossed_matches (pattern : Str) : SegmentMatches true pattern (crossed pattern) := by
  induction pattern with
  | nil => exact .nil
  | cons x pattern ih =>
      by_cases hstar : x = '*'
      · subst hstar
        exact .skip (.inl rfl) (.stop ih)
      · refine (segmentMatches_cons_iff hstar).mpr ⟨?_, ih⟩
        by_cases hquestion : x = '?'
        · subst hquestion
          exact takes_question.mpr (.inl rfl)
        · refine (takes_literal hquestion).mpr ?_
          simp [hstar, hquestion]

theorem count_crossed (pattern : Str) :
    (crossed pattern).count '/' = pattern.count '/' + pattern.countP isWildcard := by
  induction pattern with
  | nil => rfl
  | cons x pattern ih =>
      rw [crossed, List.map_cons, List.count_cons, List.count_cons, List.countP_cons, ← crossed, ih]
      by_cases hwild : isWildcard x = true
      · have hslash : x ≠ '/' := by
          rintro rfl
          cases hwild
        simp only [hwild, if_true, beq_self_eq_true, beq_false_of_ne hslash, Bool.false_eq_true,
          if_false]
        omega
      · simp only [hwild, Bool.false_eq_true, if_false]
        omega

/-- A pattern without wildcards is found anywhere in the path. -/
theorem exists_wrong_of_literal (hbytes : OneByte pattern)
    (hmem : doubleStar ∉ pathComponents (toAsciiLowercase pattern))
    (hliteral : '*' ∉ toAsciiLowercase pattern ∧ '?' ∉ toAsciiLowercase pattern) :
    ∃ text, OneByte text ∧ ¬ DecidesRightly pattern text := by
  have htext : Folded (toAsciiLowercase pattern ++ ['a']) :=
    List.forall_mem_append.mpr ⟨folded_toLower hbytes, folded_letter⟩
  refine ⟨_, htext.oneByte, fun hright => ?_⟩
  rw [DecidesRightly, globMatches_of_not_mem hmem, wildcardMatch, htext.toLower_eq] at hright
  simp only [if_pos hliteral] at hright
  have hmatch := hright.mp (congrArg some (decide_eq_true (List.prefix_append _ ['a']).isInfix))
  rw [SegmentMatches, map_globToken_of_no_star hliteral.1, matches_fixed_iff] at hmatch
  have hlength := hmatch.length_eq
  simp at hlength

/-- Without a `**`, wildcards cross separators. -/
theorem exists_wrong_of_wild (hdelimits : DelimitsDoubleStars (pathComponents pattern))
    (hbytes : OneByte pattern) (hmem : doubleStar ∉ pathComponents (toAsciiLowercase pattern))
    (hwild : ¬ ('*' ∉ toAsciiLowercase pattern ∧ '?' ∉ toAsciiLowercase pattern)) :
    ∃ text, OneByte text ∧ ¬ DecidesRightly pattern text := by
  have htext : Folded (crossed (toAsciiLowercase pattern)) := by
    intro c hc
    obtain ⟨x, hx, rfl⟩ := List.mem_map.mp hc
    split
    next => decide
    next => exact folded_toLower hbytes x hx
  have hsplit : (splitDoubleStar (toAsciiLowercase pattern)).length = 1 := by
    rw [splitDoubleStar_eq hdelimits.toLower, blocks_of_not_mem hmem]
    rfl
  refine ⟨_, htext.oneByte, fun hright => ?_⟩
  rw [DecidesRightly, globMatches_of_not_mem hmem, wildcardMatch, htext.toLower_eq] at hright
  simp only [if_neg hwild, if_pos hsplit] at hright
  have hcrossed := (wildcardMatchSegment_iff_matches _ _ true).mpr
    (crossed_matches (toAsciiLowercase pattern))
  have hmatch := hright.mp (congrArg some hcrossed)
  have hlength := (segmentMatches_iff_components.mp hmatch).length_eq
  rw [length_pathComponents, length_pathComponents, count_crossed] at hlength
  have hpos : 0 < (toAsciiLowercase pattern).countP isWildcard := by
    rw [List.countP_pos_iff]
    rcases not_and_or.mp hwild with hstar | hquestion
    · exact ⟨'*', not_not.mp hstar, by decide⟩
    · exact ⟨'?', not_not.mp hquestion, by decide⟩
  omega

end Undoubled

/-! ## The condition -/

section Condition

variable {pattern text : Str}

theorem DelimitsDoubleStars.rightScan (hdelimits : DelimitsDoubleStars (pathComponents pattern))
    (hbytes : OneByte pattern) (hmem : doubleStar ∈ pathComponents (toAsciiLowercase pattern))
    (hright : ∀ text, OneByte text → DecidesRightly pattern text) :
    RightScan (splitDoubleStar (toAsciiLowercase pattern))
      (blocks (pathComponents (toAsciiLowercase pattern))) where
  searched := map_searchedBlock_split hdelimits.toLower
  last := by
    rw [← segmentTexts_last false (.inr (two_le_blocks hmem)),
      ← splitDoubleStar_eq hdelimits.toLower, List.getLastD_eq_getLast?,
      List.getLast?_eq_some_getLast (splitDoubleStar_ne_nil _)]
    simp
  many := two_le_blocks hmem
  slashless := forall_mem_blocks fun c hc => not_slash_mem_of_mem hc
  folded := forall_mem_blocks fun c hc x hx =>
    folded_toLower hbytes x (splitAtChars_mem_subset hc x hx)
  right text htext := by
    have htext' := hright text htext.oneByte
    rwa [DecidesRightly, wildcardMatch_iff_accepts hdelimits hmem, GlobMatches, map_pathToken,
      htext.toLower_eq] at htext'

theorem alwaysRight_of_right (hdelimits : DelimitsDoubleStars (pathComponents pattern))
    (hbytes : OneByte pattern) (hright : ∀ text, OneByte text → DecidesRightly pattern text) :
    AlwaysRight (toAsciiLowercase pattern) := by
  have hmem : doubleStar ∈ pathComponents (toAsciiLowercase pattern) := by
    by_contra hmem
    obtain ⟨text, htext, hwrong⟩ : ∃ text, OneByte text ∧ ¬ DecidesRightly pattern text := by
      by_cases hliteral : '*' ∉ toAsciiLowercase pattern ∧ '?' ∉ toAsciiLowercase pattern
      · exact exists_wrong_of_literal hbytes hmem hliteral
      · exact exists_wrong_of_wild hdelimits hbytes hmem hliteral
    exact hwrong (hright text htext)
  have hscan := hdelimits.rightScan hbytes hmem hright
  exact ⟨hmem, hscan.filled, hscan.last_nil, hscan.single,
    fun _ hblock _ hc => hscan.opened hblock hc⟩

/-- The matcher decides rightly where the scan takes whole components, and it does so on
every path exactly for the patterns whose scans all do. -/
theorem decides_rightly_iff (hdelimits : DelimitsDoubleStars (pathComponents pattern))
    (hbytes : OneByte pattern) :
    (∀ text, OneByte text → ScansWhole pattern text → DecidesRightly pattern text) ∧
      ((∀ text, OneByte text → DecidesRightly pattern text) ↔
        AlwaysRight (toAsciiLowercase pattern)) := by
  have hscans : ∀ text, OneByte text → ScansWhole pattern text → DecidesRightly pattern text :=
    fun text htext => wildcardMatch_of_scansWhole hdelimits (folded_toLower htext).oneByte
  refine ⟨hscans, alwaysRight_of_right hdelimits hbytes, fun halways text htext => ?_⟩
  exact hscans text htext (halways.scansWhole hdelimits text)

theorem decides_rightly_open_block :
    (∀ text, OneByte text → DecidesRightly "src*/**".toList text) ∧
      DecidesRightly "**/*.txt".toList "a/b.txt".toList := by
  constructor
  · refine (decides_rightly_iff (by decide) (by decide)).2.mpr
      ⟨by decide, ?_, by decide, by decide, ?_⟩
    · unfold FilledBlocks
      decide
    · have hblocks : blocks (pathComponents (toAsciiLowercase "src*/**".toList)) =
          [["src*".toList], []] := by decide
      rw [hblocks]
      simp
      decide
  · refine (decides_rightly_iff (by decide) (by decide)).1 _ (by decide) ⟨by decide, ?_, ?_⟩
    · unfold FilledBlocks
      decide
    · exact ⟨"b.txt".toList, by decide⟩

/-- A match that stops too early is not taken back, and what follows a match is not
looked at. -/
theorem scan_misses_and_invents :
    (DelimitsDoubleStars (pathComponents "**/a".toList) ∧
      DelimitsDoubleStars (pathComponents "src/**".toList)) ∧
    (wildcardMatch "**/a".toList "a/a".toList = some false ∧
      GlobMatches "**/a".toList "a/a".toList) ∧
    (wildcardMatch "src/**".toList "srcfoo".toList = some true ∧
      ¬ GlobMatches "src/**".toList "srcfoo".toList) := by
  refine ⟨by decide, ⟨by decide, ?_⟩, by decide, fun h => ?_⟩
  · have hpattern : (pathComponents (toAsciiLowercase "**/a".toList)).map pathToken =
        [.many, .one "a".toList] := by decide
    have hpath : pathComponents (toAsciiLowercase "a/a".toList) = ["a".toList, "a".toList] := by
      decide
    have hlast : SegmentMatches false "a".toList "a".toList :=
      (wildcardMatchSegment_iff_matches _ _ _).mp (by decide)
    rw [GlobMatches, hpattern, hpath]
    exact .skip trivial (.stop (.one hlast .nil))
  · have hpattern : (pathComponents (toAsciiLowercase "src/**".toList)).map pathToken =
        [.one "src".toList, .many] := by decide
    have hpath : pathComponents (toAsciiLowercase "srcfoo".toList) = ["srcfoo".toList] := by decide
    rw [GlobMatches, hpattern, hpath] at h
    have hfirst := (wildcardMatchSegment_iff_matches _ _ _).mpr (matches_one_cons_iff.mp h).1
    exact absurd hfirst (by decide)

end Condition

end AbixioUi
