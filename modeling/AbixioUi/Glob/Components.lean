import AbixioUi.Glob.Segments
import AbixioUi.Glob.Slices

/-! # Path components

A path is its components, and the boundaries that the matcher visits are where they
start. A segment that crosses no separator matches component by component.
-/

namespace AbixioUi

open Foundation Foundation.Glob

def pathComponents (s : Str) : List Str := splitAtChars (· == '/') s

def joinComponents (components : List Str) : Str := ['/'].intercalate components

section Components

variable {a b c s t : Str} {components : List Str}

theorem not_slash_of_not_mem (h : '/' ∉ s) : ∀ c ∈ s, (c == '/') = false := by
  intro c hc
  rw [beq_eq_false_iff_ne]
  rintro rfl
  exact h hc

theorem pathComponents_ne_nil (s : Str) : pathComponents s ≠ [] := splitAtChars_ne_nil _ s

theorem not_slash_mem_of_mem (h : c ∈ pathComponents s) : '/' ∉ c := fun hmem => by
  simpa using splitAtChars_mem_no_sep h '/' hmem

theorem pathComponents_of_no_slash (h : '/' ∉ s) : pathComponents s = [s] :=
  splitAtChars_of_no_sep (not_slash_of_not_mem h)

theorem pathComponents_append_slash (h : '/' ∉ a) (b : Str) :
    pathComponents (a ++ '/' :: b) = a :: pathComponents b :=
  splitAtChars_append_sep (not_slash_of_not_mem h) rfl

@[simp] theorem pathComponents_slash (b : Str) :
    pathComponents ('/' :: b) = [] :: pathComponents b :=
  pathComponents_append_slash List.not_mem_nil b

/-- Along the components of a path, the last one first. -/
theorem path_induction {motive : Str → Prop} (last : ∀ a, '/' ∉ a → motive a)
    (next : ∀ a b, '/' ∉ a → motive b → motive (a ++ '/' :: b)) (s : Str) : motive s := by
  induction hlength : s.length using Nat.strong_induction_on generalizing s with
  | _ n ih =>
      by_cases hslash : '/' ∈ s
      · obtain ⟨a, b, rfl, ha⟩ := List.eq_append_cons_of_mem hslash
        refine next a b ha (ih b.length ?_ b rfl)
        rw [← hlength, List.length_append, List.length_cons]
        omega
      · exact last s hslash

theorem joinComponents_cons (c : Str) (h : components ≠ []) :
    joinComponents (c :: components) = c ++ '/' :: joinComponents components := by
  rw [joinComponents, List.intercalate_cons_of_ne_nil h, List.append_assoc]
  rfl

@[simp] theorem joinComponents_singleton (c : Str) : joinComponents [c] = c :=
  List.intercalate_singleton

theorem pathComponents_join (hne : components ≠ []) (h : ∀ c ∈ components, '/' ∉ c) :
    pathComponents (joinComponents components) = components :=
  splitAtChars_intercalate rfl hne fun c hc => not_slash_of_not_mem (h c hc)

theorem joinComponents_components (s : Str) : joinComponents (pathComponents s) = s := by
  induction s using path_induction with
  | last a ha => rw [pathComponents_of_no_slash ha, joinComponents_singleton]
  | next a b ha ih =>
      rw [pathComponents_append_slash ha, joinComponents_cons a (pathComponents_ne_nil b), ih]

theorem append_slash_inj {a' b' : Str} (ha : '/' ∉ a) (ha' : '/' ∉ a')
    (h : a ++ '/' :: b = a' ++ '/' :: b') : a = a' ∧ b = b' := by
  have hcomponents := congrArg pathComponents h
  rw [pathComponents_append_slash ha, pathComponents_append_slash ha'] at hcomponents
  obtain ⟨rfl, -⟩ := List.cons.inj hcomponents
  exact ⟨rfl, (List.cons.inj (List.append_cancel_left h)).2⟩

/-- What is put before a path without a separator lengthens its first component. -/
theorem pathComponents_append (h : '/' ∉ a) (b : Str) :
    pathComponents (a ++ b) = (pathComponents b).modifyHead (a ++ ·) := by
  induction b using path_induction with
  | last b hb =>
      have hab : '/' ∉ a ++ b := by simp [h, hb]
      rw [pathComponents_of_no_slash hab, pathComponents_of_no_slash hb, List.modifyHead_cons]
  | next b rest hb _ =>
      have hab : '/' ∉ a ++ b := by simp [h, hb]
      rw [← List.append_assoc, pathComponents_append_slash hab, pathComponents_append_slash hb,
        List.modifyHead_cons]

/-- Two paths in one share a component. -/
theorem length_pathComponents_append (s t : Str) :
    (pathComponents (s ++ t)).length + 1 =
      (pathComponents s).length + (pathComponents t).length := by
  induction s using path_induction with
  | last a ha =>
      rw [pathComponents_append ha, pathComponents_of_no_slash ha, List.length_modifyHead,
        List.length_singleton, Nat.add_comm]
  | next a b ha ih =>
      rw [List.append_assoc, List.cons_append, pathComponents_append_slash ha,
        pathComponents_append_slash ha, List.length_cons, List.length_cons]
      omega

theorem length_pathComponents (s : Str) : (pathComponents s).length = s.count '/' + 1 := by
  induction s using path_induction with
  | last a ha =>
      rw [pathComponents_of_no_slash ha, List.count_eq_zero.mpr ha, List.length_singleton]
  | next a b ha ih =>
      rw [pathComponents_append_slash ha, List.length_cons, ih, List.count_append,
        List.count_eq_zero.mpr ha, List.count_cons_self, Nat.zero_add]

theorem pathComponents_append_separator (s t : Str) :
    pathComponents (s ++ '/' :: t) = pathComponents s ++ pathComponents t := by
  induction s using path_induction with
  | last a ha =>
      rw [pathComponents_append_slash ha, pathComponents_of_no_slash ha, List.singleton_append]
  | next a b ha ih =>
      rw [List.append_assoc, List.cons_append, pathComponents_append_slash ha,
        pathComponents_append_slash ha, ih, List.cons_append]

/-- What is put behind a path changes its last component only. -/
theorem dropLast_pathComponents_append (s t : Str) :
    (pathComponents s).dropLast <+: pathComponents (s ++ t) := by
  induction s using path_induction with
  | last a ha =>
      rw [pathComponents_of_no_slash ha]
      exact List.nil_prefix
  | next a b ha ih =>
      rw [List.append_assoc, List.cons_append, pathComponents_append_slash ha,
        pathComponents_append_slash ha, List.dropLast_cons_of_ne_nil (pathComponents_ne_nil b)]
      exact List.cons_prefix_cons.mpr ⟨rfl, ih⟩

/-- The first component is empty where the path is, or starts with a separator. -/
theorem head_slash_of_head_empty (h : (pathComponents s).head? = some []) :
    s = [] ∨ s.head? = some '/' := by
  induction s using path_induction with
  | last a ha =>
      rw [pathComponents_of_no_slash ha] at h
      exact .inl (Option.some.inj h)
  | next a b ha _ =>
      rw [pathComponents_append_slash ha] at h
      obtain rfl := Option.some.inj h
      exact .inr rfl

theorem last_slash_of_last_empty (h : (pathComponents s).getLast? = some []) :
    s = [] ∨ s.getLast? = some '/' := by
  induction s using path_induction with
  | last a ha =>
      rw [pathComponents_of_no_slash ha] at h
      exact .inl (Option.some.inj h)
  | next a b ha ih =>
      rw [pathComponents_append_slash ha,
        List.getLast?_cons_of_ne_nil (pathComponents_ne_nil b)] at h
      right
      rcases ih h with rfl | hb
      · rw [List.getLast?_append_cons]
        rfl
      · rw [List.getLast?_append_cons, List.getLast?_cons, hb]
        rfl

/-- The boundaries are the starts of the components. -/
theorem map_pathBoundaries (s : Str) :
    (pathComponents s).tails = (pathBoundaries s).map pathComponents ++ [[]] := by
  induction s using path_induction with
  | last a ha =>
      rw [pathBoundaries, afterSlashes_of_not_mem ha, pathComponents_of_no_slash ha]
      simp [pathComponents_of_no_slash ha]
  | next a b ha ih =>
      rw [pathBoundaries, afterSlashes_append ha, List.map_cons, pathComponents_append_slash ha,
        List.tails_cons, ih]
      rfl

end Components

/-! ## Segments and components -/

section Segments

variable {c seg text : Str}

/-- Without crossing, a text that matches has a separator only where the pattern has. -/
theorem not_slash_mem_of_matches (h : SegmentMatches false c text) (hc : '/' ∉ c) :
    '/' ∉ text := by
  have hall : ∀ d ∈ text, d ≠ '/' := by
    refine h.forall_mem (fun p d hp htakes => ?_) fun d hd => hd.resolve_left (by decide)
    obtain ⟨x, hx, htoken⟩ := List.mem_map.mp hp
    unfold globToken at htoken
    split at htoken
    next => cases htoken
    next =>
      obtain rfl := Token.one.inj htoken
      unfold Takes at htakes
      split at htakes
      next => exact htakes.resolve_left (by decide)
      next =>
        rintro rfl
        exact hc (htakes ▸ hx)
  exact fun hmem => hall '/' hmem rfl

/-- A separator matches itself. -/
theorem segmentMatches_append_slash_iff {allowSlash : Bool} {rest : Str} :
    SegmentMatches allowSlash (c ++ '/' :: rest) text ↔
      ∃ a b, text = a ++ '/' :: b ∧ SegmentMatches allowSlash c a ∧
        SegmentMatches allowSlash rest b := by
  rw [SegmentMatches, List.map_append, matches_append_iff]
  constructor
  · rintro ⟨a, last, rfl, ha, hlast⟩
    cases last with
    | nil => exact absurd hlast not_matches_one_nil
    | cons d b =>
        obtain ⟨htakes, hb⟩ := (segmentMatches_cons_iff (by decide)).mp hlast
        obtain rfl := (takes_literal (by decide)).mp htakes
        exact ⟨a, b, rfl, ha, hb⟩
  · rintro ⟨a, b, rfl, ha, hb⟩
    exact ⟨a, _, rfl, ha, (segmentMatches_cons_iff (by decide)).mpr
      ⟨(takes_literal (by decide)).mpr rfl, hb⟩⟩

/-- A segment matches component by component. -/
theorem segmentMatches_iff_components :
    SegmentMatches false seg text ↔
      List.Forall₂ (SegmentMatches false) (pathComponents seg) (pathComponents text) := by
  induction seg using path_induction generalizing text with
  | last c hc =>
      rw [pathComponents_of_no_slash hc, List.forall₂_cons_left_iff]
      simp only [List.forall₂_nil_left_iff]
      constructor
      · intro h
        exact ⟨text, [], h, rfl, pathComponents_of_no_slash (not_slash_mem_of_matches h hc)⟩
      · rintro ⟨d, _, h, rfl, hcomponents⟩
        rwa [← joinComponents_components text, hcomponents, joinComponents_singleton]
  | next c rest hc ih =>
      rw [segmentMatches_append_slash_iff, pathComponents_append_slash hc,
        List.forall₂_cons_left_iff]
      constructor
      · rintro ⟨a, b, rfl, ha, hb⟩
        exact ⟨a, _, ha, ih.mp hb, pathComponents_append_slash (not_slash_mem_of_matches ha hc) b⟩
      · rintro ⟨a, others, ha, hothers, hcomponents⟩
        have hne : others ≠ [] := by
          rintro rfl
          exact pathComponents_ne_nil rest (List.forall₂_nil_right_iff.mp hothers)
        have hslash : ∀ c ∈ others, '/' ∉ c := fun c hmem =>
          not_slash_mem_of_mem (hcomponents ▸ List.mem_cons_of_mem a hmem)
        refine ⟨a, joinComponents others, ?_, ha, ih.mpr ?_⟩
        · rw [← joinComponents_components text, hcomponents, joinComponents_cons a hne]
        · rwa [pathComponents_join hne hslash]

end Segments

end AbixioUi
