import AbixioUi.Glob.DoubleStar

/-! # Open-ended segments

Where a `*` stands behind the last literal of a segment, a match of a prefix is as good
as one of whole components. A pattern that ends in `**` and has one such block only is
decided rightly on every path.
-/

namespace AbixioUi

open Foundation Foundation.Glob

def isWildcard (c : Char) : Bool := decide (c = '*' ∨ c = '?')

@[simp] theorem isWildcard_iff {c : Char} : isWildcard c = true ↔ c = '*' ∨ c = '?' :=
  decide_eq_true_iff

/-- A `*` stands behind the last literal of the component. -/
def OpenEnded (c : Str) : Prop := '*' ∈ c.rtakeWhile isWildcard

instance (c : Str) : Decidable (OpenEnded c) := inferInstanceAs (Decidable (_ ∈ _))

section Prefixes

variable {c x z seg text : Str}

/-- An open-ended component matches what lengthens a match. -/
theorem OpenEnded.extend (h : OpenEnded c) (hx : SegmentMatches false c x) (hz : '/' ∉ z) :
    SegmentMatches false c (x ++ z) := by
  obtain ⟨before, wilds, hrun⟩ := List.append_of_mem h
  have hwild : ∀ y ∈ wilds, y = '*' ∨ y = '?' := by
    intro y hy
    have hmem : y ∈ c.rtakeWhile isWildcard :=
      hrun ▸ List.mem_append_right before (List.mem_cons_of_mem _ hy)
    simpa using List.mem_rtakeWhile_imp hmem
  have hc : c = (c.rdropWhile isWildcard ++ before) ++ '*' :: wilds := by
    rw [List.append_assoc, ← hrun, List.rdropWhile_append_rtakeWhile]
  have hones : ∀ p ∈ ones (wilds.map globToken), p = '?' := by
    intro p hp
    obtain ⟨token, htoken, heq⟩ := List.mem_filterMap.mp hp
    obtain ⟨y, hy, rfl⟩ := List.mem_map.mp htoken
    rcases hwild y hy with rfl | rfl
    · cases heq
    · exact (Option.some.inj heq).symm
  rw [SegmentMatches, hc, List.map_append] at hx ⊢
  obtain ⟨front, rest, rfl, hfront, hrest⟩ := matches_append_iff.mp hx
  refine matches_append_iff.mpr ⟨front, rest ++ z, List.append_assoc .., hfront, ?_⟩
  rw [List.map_cons, globToken_star] at hrest ⊢
  refine matches_of_length (fun p hp a ha => ?_) ?_ ?_
  · rw [hones p hp]
    exact takes_question.mpr ha
  · refine List.forall_mem_append.mpr ⟨?_, fun a ha => .inr fun heq => hz (heq ▸ ha)⟩
    refine hrest.forall_mem (fun p a hp ha => ?_) fun a ha => ha
    have hone : p ∈ ones (wilds.map globToken) := by
      refine List.mem_filterMap.mpr ⟨_, (List.mem_cons.mp hp).resolve_left (by simp), rfl⟩
    rw [hones p hone] at ha
    exact takes_question.mp ha
  · exact hrest.length_ones_le.trans (by simp)

/-- The first component is the longest prefix without a separator. -/
theorem first_component (text : Str) :
    ∃ d ds, pathComponents text = d :: ds ∧ '/' ∉ d ∧ d <+: text ∧
      ∀ x, '/' ∉ x → x <+: text → x <+: d := by
  induction text using path_induction with
  | last a ha =>
      exact ⟨a, [], pathComponents_of_no_slash ha, ha, List.prefix_rfl, fun _ _ h => h⟩
  | next a b ha _ =>
      refine ⟨a, _, pathComponents_append_slash ha b, ha, List.prefix_append a _, ?_⟩
      intro x hx hstarts
      rcases List.prefix_or_prefix_of_prefix hstarts (List.prefix_append a _) with h | ⟨y, rfl⟩
      · exact h
      · cases y with
        | nil => rw [List.append_nil]
        | cons d y =>
            have hd := (List.cons_prefix_cons.mp ((List.prefix_append_right_inj a).mp hstarts)).1
            exact absurd (List.mem_append_right a (hd ▸ List.mem_cons_self)) hx

/-- A prefix of the path matches exactly where the first components do. -/
theorem prefix_matches_iff (hopen : ∀ c, (pathComponents seg).getLast? = some c → OpenEnded c) :
    (∃ x, x <+: text ∧ SegmentMatches false seg x) ↔
      Begins (SegmentMatches false) (pathComponents seg) (pathComponents text) := by
  induction seg using path_induction generalizing text with
  | last c hc =>
      rw [pathComponents_of_no_slash hc] at hopen ⊢
      obtain ⟨d, ds, hcomponents, hd, hstarts, hlongest⟩ := first_component text
      rw [hcomponents, begins_cons_iff, and_iff_left begins_nil]
      constructor
      · rintro ⟨x, hx, hmatch⟩
        obtain ⟨z, rfl⟩ := hlongest x (not_slash_mem_of_matches hmatch hc) hx
        exact (hopen c rfl).extend hmatch fun hz => hd (List.mem_append_right x hz)
      · exact fun h => ⟨d, hstarts, h⟩
  | next c rest hc ih =>
      rw [pathComponents_append_slash hc] at hopen ⊢
      rw [List.getLast?_cons_of_ne_nil (pathComponents_ne_nil rest)] at hopen
      constructor
      · rintro ⟨x, ⟨y, rfl⟩, hmatch⟩
        obtain ⟨a, b, rfl, ha, hb⟩ := segmentMatches_append_slash_iff.mp hmatch
        rw [List.append_assoc, List.cons_append,
          pathComponents_append_slash (not_slash_mem_of_matches ha hc), begins_cons_iff]
        exact ⟨ha, (ih hopen).mp ⟨b, List.prefix_append b y, hb⟩⟩
      · intro hbegins
        have hlength := hbegins.length_le
        have hpos := List.length_pos_iff.mpr (pathComponents_ne_nil rest)
        by_cases hslash : '/' ∈ text
        · obtain ⟨a, b, rfl, ha⟩ := List.eq_append_cons_of_mem hslash
          rw [pathComponents_append_slash ha, begins_cons_iff] at hbegins
          obtain ⟨x, ⟨y, rfl⟩, hx⟩ := (ih hopen).mpr hbegins.2
          refine ⟨a ++ '/' :: x, ⟨y, by simp⟩, ?_⟩
          exact segmentMatches_append_slash_iff.mpr ⟨a, x, rfl, hbegins.1, hx⟩
        · rw [pathComponents_of_no_slash hslash, List.length_cons, List.length_singleton] at hlength
          omega

end Prefixes

/-! ## One block in front of a `**` -/

section Placing

variable {first : Bool} {segment : Str} {segments : List Str} {remaining : Str}

theorem findSegmentMatch_isSome_iff {seg text : Str} :
    (findSegmentMatch seg text false).isSome = true ↔
      ∃ x, x <+: text ∧ SegmentMatches false seg x := by
  simp only [findSegmentMatch, List.find?_isSome, wildcardMatchSegment_iff_matches]
  constructor
  · rintro ⟨n, -, hmatch⟩
    exact ⟨_, List.take_prefix n text, hmatch⟩
  · rintro ⟨x, hstarts, hmatch⟩
    refine ⟨x.length, List.mem_range.mpr (Nat.lt_succ_of_le hstarts.length_le), ?_⟩
    rwa [← List.prefix_iff_eq_take.mp hstarts]

/-- A segment is found in a text whose first components match it. -/
theorem findSegmentMatch_isSome {seg text : Str}
    (hopen : ∀ c, (pathComponents seg).getLast? = some c → OpenEnded c) :
    (findSegmentMatch seg text false).isSome =
      blockFits (pathComponents seg) (pathComponents text) := by
  rw [Bool.eq_iff_iff, findSegmentMatch_isSome_iff, prefix_matches_iff hopen, blockFits_iff]

theorem map_findSome {α β γ : Type} (f : α → γ) (g : α → Option β) (xs : List α) :
    (xs.findSome? fun x => (g x).map fun y => (x, y)).map (fun pair => f pair.1) =
      (xs.find? fun x => (g x).isSome).map f := by
  induction xs with
  | nil => rfl
  | cons x xs ih =>
      rw [List.findSome?_cons, List.find?_cons]
      cases g x with
      | none => exact ih
      | some y => rfl

/-- A segment is found where its block first fits. -/
theorem searchSegment_placed (hblock : searchedBlock segment ≠ [])
    (hopen : ∀ c, (searchedBlock segment).getLast? = some c → OpenEnded c) :
    (searchSegment first (trimSlashes segment) remaining).map
        (fun match' => pathComponents match'.1) =
      placeBlock first (searchedBlock segment) (pathComponents remaining) := by
  have hsearched : searchedBlock segment = pathComponents (trimSlashes segment) :=
    if_neg (mt searchedBlock_eq_nil_iff.mpr hblock)
  rw [hsearched] at hopen ⊢
  have hfound := fun text => @findSegmentMatch_isSome (trimSlashes segment) text hopen
  unfold searchSegment placeBlock
  cases first with
  | true =>
      rw [if_pos rfl, if_pos rfl, List.find?_singleton, ← hfound]
      cases findSegmentMatch (trimSlashes segment) remaining false <;> rfl
  | false =>
      rw [if_neg Bool.false_ne_true, if_neg Bool.false_ne_true, map_findSome, map_pathBoundaries,
        List.find?_append, List.find?_map]
      have hnil :
          [([] : List Str)].find? (blockFits (pathComponents (trimSlashes segment))) = none := by
        rw [List.find?_singleton, if_neg]
        rw [blockFits_iff]
        intro h
        exact pathComponents_ne_nil _ (List.length_eq_zero_iff.mp (Nat.le_zero.mp h.length_le))
      rw [hnil, Option.or_none]
      refine congrArg (Option.map pathComponents) (congrFun (congrArg List.find? ?_) _)
      exact funext hfound

/-- Nothing is searched for. -/
theorem scanWhole_of_empty {path : List Str}
    (h : ∀ segment ∈ segments, searchedBlock segment = []) :
    ScanWhole first segments remaining path := by
  induction segments generalizing first with
  | nil => trivial
  | cons segment segments ih =>
      obtain ⟨hsegment, hsegments⟩ := List.forall_mem_cons.mp h
      rw [ScanWhole]
      simp only [hsegment, if_true]
      exact ih hsegments

/-- One open-ended block at most, and a `**` behind it. -/
theorem scanWhole_of_single
    (hlast : ∀ last, segments.getLast? = some last → searchedBlock last = [])
    (hsingle : ((segments.map searchedBlock).filter (· ≠ [])).length ≤ 1)
    (hopen : ∀ segment ∈ segments, ∀ c, (searchedBlock segment).getLast? = some c → OpenEnded c) :
    ScanWhole first segments remaining (pathComponents remaining) := by
  induction segments generalizing first with
  | nil => trivial
  | cons segment segments ih =>
      obtain ⟨hsegment, hsegments⟩ := List.forall_mem_cons.mp hopen
      have hrest : segments ≠ [] →
          ∀ last, segments.getLast? = some last → searchedBlock last = [] := by
        intro hne last heq
        exact hlast last ((List.getLast?_cons_of_ne_nil hne).trans heq)
      rw [ScanWhole]
      by_cases hblock : searchedBlock segment = []
      · simp only [hblock, if_true]
        by_cases hne : segments = []
        · subst hne
          trivial
        · refine ih (hrest hne) ?_ hsegments
          rwa [List.map_cons, List.filter_cons_of_neg (by simp [hblock])] at hsingle
      · have hne : segments ≠ [] := by
          rintro rfl
          exact hblock (hlast segment rfl)
        simp only [hblock, hne, if_false]
        refine ⟨searchSegment_placed hblock hsegment, fun slice len _ => ?_⟩
        rw [List.map_cons, List.filter_cons_of_pos (by simpa using hblock),
          List.length_cons] at hsingle
        have hnone := List.length_eq_zero_iff.mp (Nat.le_zero.mp (Nat.le_of_succ_le_succ hsingle))
        refine scanWhole_of_empty fun other hother => ?_
        by_contra hfilled
        have hmem : searchedBlock other ∈ (segments.map searchedBlock).filter (· ≠ []) :=
          List.mem_filter.mpr ⟨List.mem_map_of_mem hother, by simpa using hfilled⟩
        rw [hnone] at hmem
        cases hmem

end Placing

/-! ## Patterns that are right on every path -/

/-- The pattern ends in a `**`. No component of it is empty beside a `**` or at an end.
It has one block of components at most, and the last of these is open-ended. -/
structure AlwaysRight (pattern : Str) : Prop where
  doubled : doubleStar ∈ pathComponents pattern
  filled : FilledBlocks pattern
  last : (blocks (pathComponents pattern)).getLast? = some []
  single : ((blocks (pathComponents pattern)).filter (· ≠ [])).length ≤ 1
  opened : ∀ block ∈ blocks (pathComponents pattern), ∀ c, block.getLast? = some c → OpenEnded c

/-- The scan of such a pattern takes whole components on every path. -/
theorem AlwaysRight.scansWhole {pattern : Str}
    (h : DelimitsDoubleStars (pathComponents pattern))
    (hright : AlwaysRight (toAsciiLowercase pattern)) (text : Str) : ScansWhole pattern text := by
  have hsame := map_searchedBlock_filled h.toLower hright.filled
  refine ⟨hright.doubled, hright.filled, scanWhole_of_single ?_ ?_ ?_⟩
  · intro last hlast
    have hblock := hright.last
    rw [← hsame, List.getLast?_map, hlast] at hblock
    exact Option.some.inj hblock
  · rw [hsame]
    exact hright.single
  · intro segment hsegment
    exact hright.opened _ (hsame ▸ List.mem_map_of_mem hsegment)

end AbixioUi
