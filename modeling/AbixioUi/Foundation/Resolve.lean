import AbixioUi.Foundation.Path

/-! # Paths below a root

Lexical resolution: `..` takes back the name before it, and above a root there is
nothing. A text joined to any root stays below it exactly if the text starts here, its
`..` never outnumber the names before them, and some name is left.
-/

namespace AbixioUi.Foundation

/-! ## Resolution -/

/-- One more component, after those taken so far in reverse. -/
def resolveStep (rooted : Bool) : List Component → Component → List Component
  | taken, .normal name => .normal name :: taken
  | .normal _ :: taken, .parentDir => taken
  | taken, .parentDir => if rooted then taken else .parentDir :: taken

@[simp] theorem resolveStep_normal (rooted : Bool) (taken : List Component) (name : OsString) :
    resolveStep rooted taken (.normal name) = .normal name :: taken := by
  cases taken with
  | nil => rfl
  | cons component taken => cases component <;> rfl

def PathBuf.resolve (path : PathBuf) : PathBuf :=
  { path with components := (path.components.foldl (resolveStep path.rooted) []).reverse }

/-- Resolved, the path is reached from the root by one name or more. -/
def PathBuf.StrictlyBelow (path root : PathBuf) : Prop :=
  ∃ names, names ≠ [] ∧ path.resolve = root.resolve.descend names

/-- Without a root, what leads above the start is never taken back. -/
theorem parentDir_mem_resolve {taken : List Component} (components : List Component)
    (h : .parentDir ∈ taken) : .parentDir ∈ components.foldl (resolveStep false) taken := by
  induction components generalizing taken with
  | nil => exact h
  | cons component components ih =>
      apply ih
      unfold resolveStep
      split
      next name => exact List.mem_cons_of_mem _ h
      next => simpa using h
      next => exact List.mem_cons_self

/-! ## The parts of a text -/

/-- Empty parts and `.` mean nothing. -/
def partsOf (platform : Platform) (s : Str) : List Str :=
  (splitAtChars platform.isSeparator s).filter fun part => decide (part ≠ [] ∧ part ≠ ['.'])

def partComponent (part : Str) : Component :=
  if part = ['.', '.'] then .parentDir else .normal (OsString.ofStr part)

/-- How deep the parts lead from a depth, unless they lead above the start. -/
def depthOf : Nat → List Str → Option Nat
  | depth, [] => some depth
  | depth, part :: parts =>
      if part = ['.', '.'] then
        match depth with
        | 0 => none
        | depth + 1 => depthOf depth parts
      else depthOf (depth + 1) parts

/-- The text leads below the place it is joined to. -/
def StaysBelow (platform : Platform) (s : Str) : Prop :=
  startsElsewhere platform s = false ∧ ∃ depth, depthOf 0 (partsOf platform s) = some (depth + 1)

theorem componentsOf_eq_map (platform : Platform) (s : Str) :
    componentsOf platform s = (partsOf platform s).map partComponent := by
  unfold componentsOf partsOf
  induction splitAtChars platform.isSeparator s with
  | nil => rfl
  | cons piece pieces ih =>
      by_cases hempty : piece = []
      · simpa [componentOf, hempty] using ih
      · by_cases hdot : piece = ['.']
        · simpa [componentOf, hdot] using ih
        · by_cases hdotdot : piece = ['.', '.']
          · simpa [componentOf, partComponent, hdotdot] using ih
          · simpa [componentOf, partComponent, hempty, hdot, hdotdot] using ih

theorem partComponent_injective : Function.Injective partComponent := by
  intro part other h
  unfold partComponent at h
  split_ifs at h with hpart hother
  · rw [hpart, hother]
  · exact ofStr_injective (Component.normal.inj h)

/-- Parts that never lead above their start keep what was taken before them. -/
theorem resolve_of_depthOf {rooted : Bool} {parts : List Str} {names : List OsString}
    {base : List Component} {depth : Nat} (h : depthOf names.length parts = some depth) :
    ∃ left : List OsString, left.length = depth ∧
      (parts.map partComponent).foldl (resolveStep rooted) (names.map .normal ++ base) =
        left.map .normal ++ base := by
  induction parts generalizing names with
  | nil => exact ⟨names, Option.some.inj h, rfl⟩
  | cons part parts ih =>
      unfold depthOf at h
      rw [List.map_cons, List.foldl_cons]
      by_cases hpart : part = ['.', '.']
      · rw [if_pos hpart] at h
        cases names with
        | nil => cases h
        | cons name names =>
            have hstep : resolveStep rooted ((name :: names).map .normal ++ base)
                (partComponent part) = names.map .normal ++ base := by
              rw [partComponent, if_pos hpart]
              rfl
            rw [hstep]
            exact ih h
      · rw [if_neg hpart] at h
        have hstep : resolveStep rooted (names.map .normal ++ base) (partComponent part) =
            (OsString.ofStr part :: names).map .normal ++ base := by
          rw [partComponent, if_neg hpart, resolveStep_normal]
          rfl
        rw [hstep]
        exact ih h

/-- Parts that lead above their start leave a `..` behind. -/
theorem parentDir_mem_of_depthOf {parts : List Str} {names : List OsString}
    (h : depthOf names.length parts = none) :
    .parentDir ∈ (parts.map partComponent).foldl (resolveStep false) (names.map .normal) := by
  induction parts generalizing names with
  | nil => cases h
  | cons part parts ih =>
      unfold depthOf at h
      rw [List.map_cons, List.foldl_cons]
      by_cases hpart : part = ['.', '.']
      · rw [if_pos hpart] at h
        rw [partComponent, if_pos hpart]
        cases names with
        | nil => exact parentDir_mem_resolve _ List.mem_cons_self
        | cons name names => exact ih h
      · rw [if_neg hpart] at h
        have hstep : resolveStep false (names.map .normal) (partComponent part) =
            (OsString.ofStr part :: names).map .normal := by
          rw [partComponent, if_neg hpart, resolveStep_normal]
          rfl
        rw [hstep]
        exact ih h

/-! ## Joining -/

section Joining

variable {platform : Platform} {s : Str}

theorem join_of_startsHere (h : startsElsewhere platform s = false) (root : PathBuf) :
    root.join platform s =
      { root with components := root.components ++ componentsOf platform s } := by
  simp [PathBuf.join, parsePath_of_startsHere h]

theorem StaysBelow.strictlyBelow (h : StaysBelow platform s) (root : PathBuf) :
    (root.join platform s).StrictlyBelow root := by
  obtain ⟨hstarts, depth, hdepth⟩ := h
  obtain ⟨left, hleft, hresolve⟩ := @resolve_of_depthOf root.rooted (partsOf platform s) []
    (root.components.foldl (resolveStep root.rooted) []) _ hdepth
  refine ⟨left.reverse, ?_, ?_⟩
  · intro hnil
    rw [List.reverse_eq_nil_iff] at hnil
    rw [hnil] at hleft
    cases hleft
  · rw [join_of_startsHere hstarts, componentsOf_eq_map]
    simp only [PathBuf.resolve, PathBuf.descend, List.foldl_append, PathBuf.mk.injEq, true_and]
    rw [List.map_nil, List.nil_append] at hresolve
    rw [hresolve, List.reverse_append, List.map_reverse]

/-- The empty path: every other root is joined to from there. -/
def PathBuf.empty : PathBuf := { drive := none, rooted := false, components := [] }

theorem startsHere_of_join_empty (hdrive : (PathBuf.empty.join platform s).drive = none)
    (hrooted : (PathBuf.empty.join platform s).rooted = false) :
    startsElsewhere platform s = false := by
  unfold PathBuf.join at hdrive hrooted
  simp only at hdrive hrooted
  by_cases hsome : (parsePath platform s).drive.isSome = true
  · rw [if_pos hsome] at hdrive
    rw [hdrive] at hsome
    cases hsome
  · rw [if_neg hsome] at hrooted
    by_cases hroot : (parsePath platform s).rooted = true
    · rw [if_pos hroot, hroot] at hrooted
      cases hrooted
    · exact startsElsewhere_of_relative (Option.not_isSome_iff_eq_none.mp hsome)
        (Bool.eq_false_iff.mpr hroot)

/-- A text that stays below the empty path stays below every root. -/
theorem staysBelow_of_empty (h : (PathBuf.empty.join platform s).StrictlyBelow .empty) :
    StaysBelow platform s := by
  obtain ⟨names, hnames, hresolve⟩ := h
  have hdrive : (PathBuf.empty.join platform s).drive = none := congrArg PathBuf.drive hresolve
  have hrooted : (PathBuf.empty.join platform s).rooted = false := congrArg PathBuf.rooted hresolve
  have hstarts := startsHere_of_join_empty hdrive hrooted
  refine ⟨hstarts, ?_⟩
  rw [join_of_startsHere hstarts, componentsOf_eq_map] at hresolve
  have hcomponents : (((partsOf platform s).map partComponent).foldl (resolveStep false) []).reverse
      = names.map .normal := congrArg PathBuf.components hresolve
  cases hdepth : depthOf 0 (partsOf platform s) with
  | none =>
      have hmem := @parentDir_mem_of_depthOf (partsOf platform s) [] hdepth
      rw [List.map_nil, ← List.mem_reverse, hcomponents] at hmem
      obtain ⟨name, -, hname⟩ := List.mem_map.mp hmem
      cases hname
  | some depth =>
      cases depth with
      | succ depth => exact ⟨depth, rfl⟩
      | zero =>
          obtain ⟨left, hleft, hleave⟩ :=
            @resolve_of_depthOf false (partsOf platform s) [] [] _ hdepth
          rw [List.length_eq_zero_iff] at hleft
          subst hleft
          rw [List.map_nil, List.nil_append] at hleave
          rw [hleave] at hcomponents
          exact absurd (List.map_eq_nil_iff.mp hcomponents.symm) hnames

/-- Relative texts lead to one path exactly if they have the same parts. -/
theorem join_eq_join_iff {t : Str} (hs : startsElsewhere platform s = false)
    (ht : startsElsewhere platform t = false) (root : PathBuf) :
    root.join platform s = root.join platform t ↔ partsOf platform s = partsOf platform t := by
  rw [join_of_startsHere hs, join_of_startsHere ht, componentsOf_eq_map, componentsOf_eq_map]
  simp only [PathBuf.mk.injEq, true_and, List.append_cancel_left_eq]
  exact (List.map_injective_iff.mpr partComponent_injective).eq_iff

end Joining

end AbixioUi.Foundation
