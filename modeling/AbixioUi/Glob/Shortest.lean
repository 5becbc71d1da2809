import AbixioUi.Glob.OpenEnded

/-! # Paths that the scan gets through

The segments of a pattern, each written out as shortly as it matches, one right behind
the other: the scan finds every segment where it stands. Such a path has fewer
components than the pattern where two segments meet in one.
-/

namespace AbixioUi

open Foundation Foundation.Glob

/-- The shortest text that matches, with one character for every `?`. -/
def least (q : Char) (c : Str) : Str := (c.filter (· ≠ '*')).map fun x => if x = '?' then q else x

/-- The shortest text that matches and is not empty, unless the component is. -/
def fillComponent (q : Char) (c : Str) : Str :=
  if least q c = [] ∧ c ≠ [] then [q] else least q c

/-- The shortest text that matches the components with a separator between them; a
separator starts it only where the first component is empty. -/
def fill (q : Char) : List Str → Str
  | [] => []
  | [c] => least q c
  | c :: block => fillComponent q c ++ '/' :: fill q block

section Filling

variable {q : Char} {c x y : Str} {block : List Str}

theorem fill_cons (q : Char) (c : Str) (h : block ≠ []) :
    fill q (c :: block) = fillComponent q c ++ '/' :: fill q block := by
  cases block with
  | nil => exact absurd rfl h
  | cons _ _ => rfl

theorem ones_map_globToken (c : Str) : ones (c.map globToken) = c.filter (· ≠ '*') := by
  induction c with
  | nil => rfl
  | cons x c ih =>
      rw [List.map_cons, globToken]
      split
      next hx => rw [ones_many, ih, List.filter_cons_of_neg (by simp [hx])]
      next hx => rw [ones_one, ih, List.filter_cons_of_pos (by simpa using hx)]

theorem least_cons_of_ne (q : Char) {x : Char} (c : Str) (h : x ≠ '*') :
    least q (x :: c) = (if x = '?' then q else x) :: least q c := by
  simp [least, h]

theorem least_append (q : Char) (c d : Str) : least q (c ++ d) = least q c ++ least q d := by
  simp [least]

theorem takes_least (hq : q ≠ '/') (x : Char) : Takes false x (if x = '?' then q else x) := by
  split
  next h => rw [h]; exact takes_question.mpr (.inr hq)
  next h => exact (takes_literal h).mpr rfl

theorem least_matches (hq : q ≠ '/') (c : Str) : SegmentMatches false c (least q c) := by
  induction c with
  | nil => exact .nil
  | cons x c ih =>
      by_cases hx : x = '*'
      · subst hx
        exact .stop ih
      · rw [least_cons_of_ne q c hx, segmentMatches_cons_iff hx]
        exact ⟨takes_least hq x, ih⟩

theorem length_least_le (q : Char) (h : SegmentMatches false c x) :
    (least q c).length ≤ x.length := by
  have hlength := h.length_ones_le
  rwa [ones_map_globToken, ← List.length_map] at hlength

theorem eq_star_of_least_nil (h : least q c = []) : ∀ x ∈ c, x = '*' := by
  simpa [least] using h

theorem fillComponent_matches (hq : q ≠ '/') (c : Str) :
    SegmentMatches false c (fillComponent q c) := by
  unfold fillComponent
  split
  next h =>
    obtain ⟨hleast, hne⟩ := h
    have hstars := eq_star_of_least_nil hleast
    cases c with
    | nil => exact absurd rfl hne
    | cons x c =>
        obtain ⟨rfl, -⟩ := List.forall_mem_cons.mp hstars
        exact .skip (.inr hq) (segmentMatches_nil_right_iff.mpr hstars)
  next => exact least_matches hq c

theorem not_slash_mem_fillComponent (hq : q ≠ '/') (h : '/' ∉ c) : '/' ∉ fillComponent q c :=
  not_slash_mem_of_matches (fillComponent_matches hq c) h

/-- No shorter front of a text that starts so matches. -/
theorem fill_shortest (hq : q ≠ '/') (hne : block ≠ []) (hslash : ∀ c ∈ block, '/' ∉ c)
    (hstarts : x <+: fill q block ++ y) (hmatch : SegmentMatches false (joinComponents block) x) :
    (fill q block).length ≤ x.length := by
  induction block generalizing x with
  | nil => exact absurd rfl hne
  | cons c block ih =>
      obtain ⟨hc, hblock⟩ := List.forall_mem_cons.mp hslash
      by_cases hlast : block = []
      · subst hlast
        rw [joinComponents_singleton] at hmatch
        exact length_least_le q hmatch
      · rw [joinComponents_cons c hlast] at hmatch
        obtain ⟨a, b, rfl, ha, hb⟩ := segmentMatches_append_slash_iff.mp hmatch
        obtain ⟨z, hz⟩ := hstarts
        rw [fill_cons q c hlast, List.append_assoc, List.append_assoc, List.cons_append,
          List.cons_append] at hz
        obtain ⟨rfl, hrest⟩ := append_slash_inj (not_slash_mem_of_matches ha hc)
          (not_slash_mem_fillComponent hq hc) hz
        have hlength := ih hlast hblock ⟨z, hrest⟩ hb
        rw [fill_cons q c hlast, List.length_append, List.length_append, List.length_cons,
          List.length_cons]
        omega

theorem fill_matches (hq : q ≠ '/') (hne : block ≠ []) :
    SegmentMatches false (joinComponents block) (fill q block) := by
  induction block with
  | nil => exact absurd rfl hne
  | cons c block ih =>
      by_cases hlast : block = []
      · subst hlast
        rw [joinComponents_singleton]
        exact least_matches hq c
      · rw [joinComponents_cons c hlast, fill_cons q c hlast]
        exact segmentMatches_append_slash_iff.mpr
          ⟨_, _, rfl, fillComponent_matches hq c, ih hlast⟩

theorem findSegmentMatch_fill (hq : q ≠ '/') (hne : block ≠ []) (hslash : ∀ c ∈ block, '/' ∉ c)
    (y : Str) :
    findSegmentMatch (joinComponents block) (fill q block ++ y) false =
      some (fill q block).length := by
  rw [findSegmentMatch, List.find?_range_eq_some]
  refine ⟨?_, ?_, fun n hn => ?_⟩
  · rw [List.take_left, wildcardMatchSegment_iff_matches]
    exact fill_matches hq hne
  · rw [List.mem_range, List.length_append]
    omega
  · rw [Bool.not_eq_true', ← Bool.not_eq_true, wildcardMatchSegment_iff_matches]
    intro hmatch
    have hlength := fill_shortest hq hne hslash (List.take_prefix n _) hmatch
    rw [List.length_take] at hlength
    omega

theorem length_pathComponents_fill (hq : q ≠ '/') (hne : block ≠ [])
    (hslash : ∀ c ∈ block, '/' ∉ c) : (pathComponents (fill q block)).length = block.length := by
  have hcomponents := segmentMatches_iff_components.mp (fill_matches hq hne)
  rw [pathComponents_join hne hslash] at hcomponents
  exact hcomponents.length_eq.symm

theorem fillComponent_ne_nil (h : c ≠ []) : fillComponent q c ≠ [] := by
  unfold fillComponent
  split
  next => exact List.cons_ne_nil q []
  next hleast => exact fun heq => hleast ⟨heq, h⟩

theorem head_append_ne_slash (hx : '/' ∉ x) (hy : x = [] → y.head? ≠ some '/') :
    (x ++ y).head? ≠ some '/' := by
  cases x with
  | nil => exact hy rfl
  | cons d x =>
      intro h
      exact hx (Option.some.inj h ▸ List.mem_cons_self)

/-- A block that starts with a component that is not empty starts with no separator. -/
theorem fill_append_head (hq : q ≠ '/') (hslash : ∀ c ∈ block, '/' ∉ c)
    (hhead : block.head? ≠ some []) (hy : y.head? ≠ some '/') :
    (fill q block ++ y).head? ≠ some '/' := by
  cases block with
  | nil => exact hy
  | cons c block =>
      have hc : '/' ∉ c := hslash c List.mem_cons_self
      by_cases hlast : block = []
      · subst hlast
        exact head_append_ne_slash (not_slash_mem_of_matches (least_matches hq c) hc) fun _ => hy
      · rw [fill_cons q c hlast, List.append_assoc]
        refine head_append_ne_slash (not_slash_mem_fillComponent hq hc) fun heq => ?_
        exact absurd heq (fillComponent_ne_nil fun hnil => hhead (congrArg some hnil))

/-- Every character is one of the block, the one for `?`, or a separator. -/
theorem forall_mem_fill {P : Char → Prop} (hq : P q) (hsep : P '/')
    (hblock : ∀ c ∈ block, ∀ x ∈ c, P x) : ∀ x ∈ fill q block, P x := by
  have hleast : ∀ c : Str, (∀ x ∈ c, P x) → ∀ x ∈ least q c, P x := by
    intro c hc x hx
    obtain ⟨z, hz, rfl⟩ := List.mem_map.mp hx
    split
    next => exact hq
    next => exact hc z (List.mem_filter.mp hz).1
  induction block with
  | nil => simp [fill]
  | cons c block ih =>
      obtain ⟨hc, hrest⟩ := List.forall_mem_cons.mp hblock
      by_cases hlast : block = []
      · subst hlast
        exact hleast c hc
      · rw [fill_cons q c hlast]
        refine List.forall_mem_append.mpr ⟨?_, List.forall_mem_cons.mpr ⟨hsep, ih hrest⟩⟩
        unfold fillComponent
        split
        next => simpa using hq
        next => exact hleast c hc

theorem least_questions (q : Char) {questions : Str} (h : ∀ x ∈ questions, x = '?') :
    least q questions = List.replicate questions.length q := by
  induction questions with
  | nil => rfl
  | cons x questions ih =>
      obtain ⟨rfl, hrest⟩ := List.forall_mem_cons.mp h
      rw [least_cons_of_ne q questions (by decide), ih hrest]
      rfl

/-- A text that is one character too long matches only a component that is open-ended. -/
theorem not_matches_least (hopen : ¬ OpenEnded c)
    (hliteral : (c.rdropWhile isWildcard).getLast? ≠ some q) :
    ¬ SegmentMatches false c (least q c ++ [q]) := by
  have hlast := List.rdropWhile_last_not isWildcard c
  generalize hfront : c.rdropWhile isWildcard = front at hliteral hlast
  generalize hquestions : c.rtakeWhile isWildcard = questions
  have hc : c = front ++ questions := by
    rw [← hfront, ← hquestions, List.rdropWhile_append_rtakeWhile]
  have hstar : '*' ∉ questions := hquestions ▸ hopen
  have hquestion : ∀ x ∈ questions, x = '?' := by
    intro x hx
    have hwild : x = '*' ∨ x = '?' := by
      rw [← hquestions] at hx
      simpa using List.mem_rtakeWhile_imp hx
    refine hwild.resolve_left ?_
    rintro rfl
    exact hstar hx
  rw [hc, least_append, least_questions q hquestion, List.append_assoc, ← List.replicate_succ',
    List.replicate_succ, SegmentMatches, List.map_append, map_globToken_of_no_star hstar,
    matches_append_iff]
  rintro ⟨taken, rest, heq, htaken, hrest⟩
  have hlength := (matches_fixed_iff.mp hrest).length_eq
  -- The `?` take the last characters, and what is before them ends with the same one.
  have hsplit : (least q front ++ [q]) ++ List.replicate questions.length q = taken ++ rest := by
    simpa using heq
  obtain ⟨hleft, -⟩ := List.append_inj' hsplit (by simpa using hlength)
  rw [← hleft] at htaken
  rcases List.eq_nil_or_concat front with rfl | ⟨others, x, rfl⟩
  · exact absurd (matches_nil_iff.mp htaken) (by simp)
  · have hx : ¬ (x = '*' ∨ x = '?') := by simpa using hlast
    obtain ⟨hstar', hquestion'⟩ := not_or.mp hx
    rw [List.concat_eq_append, List.map_append, List.map_singleton,
      globToken_of_ne hstar'] at htaken
    obtain ⟨taken', last, heq', -, hone⟩ := matches_append_iff.mp htaken
    cases hone with
    | one htakes hnil =>
        obtain rfl := matches_nil_iff.mp hnil
        obtain rfl := (takes_literal hquestion').mp htakes
        obtain ⟨-, hsame⟩ := List.append_inj' heq' rfl
        exact hliteral (by simpa using (List.cons.inj hsame).1.symm)

/-- The same of the components of a block. -/
theorem not_matches_fill (hq : q ≠ '/') (hslash : ∀ c ∈ block, '/' ∉ c)
    (hlast : block.getLast? = some c) (hopen : ¬ OpenEnded c)
    (hliteral : (c.rdropWhile isWildcard).getLast? ≠ some q) :
    ¬ SegmentMatches false (joinComponents block) (fill q block ++ [q]) := by
  induction block with
  | nil => cases hlast
  | cons d block ih =>
      obtain ⟨hd, hblock⟩ := List.forall_mem_cons.mp hslash
      by_cases hne : block = []
      · subst hne
        obtain rfl := Option.some.inj hlast
        rw [joinComponents_singleton]
        exact not_matches_least hopen hliteral
      · rw [List.getLast?_cons_of_ne_nil hne] at hlast
        rw [joinComponents_cons d hne, fill_cons q d hne, List.append_assoc, List.cons_append]
        intro hmatch
        obtain ⟨a, b, heq, ha, hb⟩ := segmentMatches_append_slash_iff.mp hmatch
        obtain ⟨-, rfl⟩ := append_slash_inj (not_slash_mem_fillComponent hq hd)
          (not_slash_mem_of_matches ha hd) heq
        exact ih hblock hlast hb

/-- Some letter is not the given one. -/
theorem exists_other_than (literal : Option Char) :
    ∃ q : Char, (q.utf8Size = 1 ∧ q.toLower = q) ∧ q ≠ '/' ∧ literal ≠ some q := by
  by_cases h : literal = some 'a'
  · subst h
    exact ⟨'b', by decide⟩
  · exact ⟨'a', by decide, by decide, h⟩

end Filling

/-! ## The path of all segments -/

/-- The searched blocks, one right behind the other. -/
def glued (q : Char) (blocks : List (List Str)) : Str := blocks.flatMap (fill q)

section Glued

variable {q : Char} {y : Str} {segments : List Str} {first : Bool}

theorem searchedBlock_no_slash (segment : Str) : ∀ c ∈ searchedBlock segment, '/' ∉ c := by
  rw [searchedBlock]
  split
  next => simp
  next => exact fun c hc => not_slash_mem_of_mem hc

theorem searchedBlock_head (segment : Str) : (searchedBlock segment).head? ≠ some [] := by
  rw [searchedBlock_eq]
  intro h
  exact absurd (trimBoth_head h) (by decide)

theorem glued_append_head (hq : q ≠ '/') (hy : y.head? ≠ some '/') (segments : List Str) :
    (glued q (segments.map searchedBlock) ++ y).head? ≠ some '/' := by
  induction segments with
  | nil => exact hy
  | cons segment segments ih =>
      rw [List.map_cons, glued, List.flatMap_cons, List.append_assoc]
      exact fill_append_head hq (searchedBlock_no_slash segment) (searchedBlock_head segment) ih

theorem trimStartMatches_of_head {s : Str} (h : s.head? ≠ some '/') :
    trimStartMatches '/' s = s := by
  refine dropWhile_of_head fun c hc => ?_
  rw [beq_eq_false_iff_ne]
  rintro rfl
  exact h hc

theorem joinComponents_searchedBlock {segment : Str} (h : searchedBlock segment ≠ []) :
    joinComponents (searchedBlock segment) = trimSlashes segment := by
  rw [searchedBlock, if_neg (mt searchedBlock_eq_nil_iff.mpr h), joinComponents_components]

/-- A segment is found where it stands. -/
theorem searchSegment_fill (hq : q ≠ '/') {segment : Str} (h : searchedBlock segment ≠ [])
    (y : Str) :
    searchSegment first (trimSlashes segment) (fill q (searchedBlock segment) ++ y) =
      some (fill q (searchedBlock segment) ++ y, (fill q (searchedBlock segment)).length) := by
  have hfind := findSegmentMatch_fill hq h (searchedBlock_no_slash segment) y
  rw [joinComponents_searchedBlock h] at hfind
  cases first with
  | true =>
      rw [searchSegment, if_pos rfl, hfind]
      rfl
  | false =>
      rw [searchSegment, if_neg Bool.false_ne_true, pathBoundaries, List.findSome?_cons, hfind]
      rfl

/-- The scan gets through all segments and leaves what stands behind them. -/
theorem matchSegments_glued (hq : q ≠ '/') (hy : y.head? ≠ some '/')
    (hbytes : OneByte (glued q (segments.map searchedBlock) ++ y)) :
    matchSegments first segments (glued q (segments.map searchedBlock) ++ y) = some (some y) := by
  induction segments generalizing first with
  | nil => rfl
  | cons segment segments ih =>
      have hsplit : glued q ((segment :: segments).map searchedBlock) ++ y =
          fill q (searchedBlock segment) ++ (glued q (segments.map searchedBlock) ++ y) := by
        rw [List.map_cons, glued, List.flatMap_cons, List.append_assoc]
        rfl
      rw [hsplit] at hbytes ⊢
      have hrest : OneByte (glued q (segments.map searchedBlock) ++ y) := fun c hc =>
        hbytes c (List.mem_append_right _ hc)
      rw [matchSegments]
      by_cases hblock : searchedBlock segment = []
      · simp only [searchedBlock_eq_nil_iff.mp hblock, if_true]
        rw [hblock]
        exact ih hrest
      · simp only [mt searchedBlock_eq_nil_iff.mpr hblock, if_false, searchSegment_fill hq hblock]
        rw [(sliceFrom_take_iff (by simp)).mpr fun c hc => hbytes c (List.mem_of_mem_take hc)]
        simp only [List.drop_left]
        rw [trimStartMatches_of_head (glued_append_head hq hy segments)]
        exact ih hrest

/-- What stands behind the segments decides. -/
theorem accepts_glued (hq : q ≠ '/') (hy : y.head? ≠ some '/')
    (hbytes : OneByte (glued q (segments.map searchedBlock) ++ y)) :
    Accepts first segments (glued q (segments.map searchedBlock) ++ y) ↔
      (segments.getLastD [] ≠ [] → y = []) := by
  rw [Accepts, matchSegments_glued hq hy hbytes]
  simp only [Option.some.injEq, exists_eq_left']
  refine imp_congr_right fun _ => ?_
  cases y with
  | nil => simp
  | cons c y => simpa using fun h => absurd (congrArg some h) hy

theorem glued_filter (q : Char) (bs : List (List Str)) :
    glued q (bs.filter (· ≠ [])) = glued q bs := by
  induction bs with
  | nil => rfl
  | cons block bs ih =>
      by_cases hne : block = []
      · subst hne
        rw [List.filter_cons_of_neg (by simp), ih]
        rfl
      · rw [List.filter_cons_of_pos (by simpa using hne), glued, List.flatMap_cons]
        exact congrArg (fill q block ++ ·) ih

/-- Each segment shares a component with what stands behind it. -/
theorem length_pathComponents_glued (hq : q ≠ '/') {bs : List (List Str)}
    (hslash : ∀ block ∈ bs, ∀ c ∈ block, '/' ∉ c) (y : Str) :
    (pathComponents (glued q bs ++ y)).length + (bs.filter (· ≠ [])).length =
      bs.flatten.length + (pathComponents y).length := by
  induction bs with
  | nil => simp [glued]
  | cons block bs ih =>
      obtain ⟨hblock, hbs⟩ := List.forall_mem_cons.mp hslash
      have hrest := ih hbs
      rw [glued, List.flatMap_cons, List.append_assoc, List.flatten_cons, List.length_append]
      by_cases hne : block = []
      · subst hne
        rw [List.filter_cons_of_neg (by simp), List.length_nil, Nat.zero_add]
        exact hrest
      · have happend := length_pathComponents_append (fill q block) (glued q bs ++ y)
        rw [length_pathComponents_fill hq hne hblock] at happend
        rw [List.filter_cons_of_pos (by simpa using hne), List.length_cons]
        unfold glued at happend hrest
        omega

end Glued

end AbixioUi
