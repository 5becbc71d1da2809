import AbixioUi.Foundation.Text

/-! # Lexical file paths

The path type of the source language's standard library: parsing a text into
components, joining, and equality by components. Two platforms are modelled,
because the main separator, the accepted separators and the prefixes differ. File
names are lists of units so that a name that is not well-formed Unicode is
distinct from its lossy rendering.
-/

namespace AbixioUi.Foundation

inductive Platform
  | windows
  | unix
deriving DecidableEq, Repr

/-- One unit of an operating-system string. -/
inductive OsUnit
  | char (c : Char)
  | illFormed (raw : Nat)
deriving DecidableEq, Repr

abbrev OsString := List OsUnit

def OsString.ofStr (s : Str) : OsString := s.map .char

/-- Lossy decoding shows every ill-formed unit as the replacement character. -/
def OsUnit.lossy : OsUnit → Char
  | .char c => c
  | .illFormed _ => '\uFFFD'

def toStringLossy (name : OsString) : Str := name.map OsUnit.lossy

inductive Component
  | parentDir
  | normal (name : OsString)
deriving DecidableEq, Repr

/-- The part of a Windows path before its root. -/
inductive PathPrefix
  | disk (letter : Char)
  | unc (server share : Str)
deriving DecidableEq, Repr

/-- A path up to the equality of the standard library, which is componentwise. -/
structure PathBuf where
  drive : Option PathPrefix
  rooted : Bool
  components : List Component
deriving DecidableEq, Repr

namespace Platform

def mainSeparator : Platform → Char
  | .windows => '\\'
  | .unix => '/'

def isSeparator : Platform → Char → Bool
  | .windows, c => c == '\\' || c == '/'
  | .unix, c => c == '/'

end Platform

/-- Empty pieces and `.` are dropped; `..` stays, since nothing is resolved. -/
def componentOf (piece : Str) : Option Component :=
  if piece = [] then none
  else if piece = ['.'] then none
  else if piece = ['.', '.'] then some .parentDir
  else some (.normal (OsString.ofStr piece))

def componentsOf (platform : Platform) (s : Str) : List Component :=
  (splitAtChars platform.isSeparator s).filterMap componentOf

/-- Only Windows has prefixes: a disk letter in either case, or a server and a share. -/
def parsePrefix : Platform → Str → Option PathPrefix × Str
  | .unix, s => (none, s)
  | .windows, s =>
      match s with
      | letter :: ':' :: rest =>
          if letter.isAlpha then (some (.disk letter.toUpper), rest) else (none, s)
      | a :: b :: rest =>
          if Platform.windows.isSeparator a && Platform.windows.isSeparator b then
            match splitAtChars Platform.windows.isSeparator rest with
            | server :: share :: _ =>
                if server = [] ∨ share = [] then (none, s)
                else (some (.unc server share), rest.drop (server.length + 1 + share.length))
            | _ => (none, s)
          else (none, s)
      | _ => (none, s)

def parsePath (platform : Platform) (s : Str) : PathBuf :=
  let (drive, rest) := parsePrefix platform s
  { drive := drive
    rooted := match rest with
      | c :: _ => platform.isSeparator c
      | [] => false
    components := componentsOf platform rest }

/-- An operand with a prefix or a root replaces the base (on Windows, a root
without a prefix keeps the prefix of the base); any other operand is appended. -/
def PathBuf.join (platform : Platform) (base : PathBuf) (fragment : Str) : PathBuf :=
  let operand := parsePath platform fragment
  if operand.drive.isSome then operand
  else if operand.rooted then { operand with drive := base.drive }
  else { base with components := base.components ++ operand.components }

/-- The path of the entry reached from `base` by the given file names. -/
def PathBuf.descend (base : PathBuf) (names : List OsString) : PathBuf :=
  { base with components := base.components ++ names.map .normal }

def PathBuf.parent (path : PathBuf) : Option PathBuf :=
  if path.components = [] then none
  else some { path with components := path.components.dropLast }

/-- The path and everything above it. -/
def PathBuf.ancestors (path : PathBuf) : List PathBuf :=
  path.components.inits.map fun components => { path with components := components }

/-- The components below `root`, when `path` starts with it. -/
def PathBuf.stripPrefix (path root : PathBuf) : Option (List Component) :=
  if path.drive = root.drive ∧ path.rooted = root.rooted then
    if root.components <+: path.components then
      some (path.components.drop root.components.length)
    else none
  else none

/-- A relative path's text: its components between main separators. -/
def renderComponents (platform : Platform) (components : List Component) : List OsUnit :=
  [OsUnit.char platform.mainSeparator].intercalate
    (components.map fun
      | .parentDir => OsString.ofStr ['.', '.']
      | .normal name => name)

def PathPrefix.display : PathPrefix → Str
  | .disk letter => [letter, ':']
  | .unc server share => '\\' :: '\\' :: server ++ '\\' :: share

/-- A path as it is shown, without the spelling that path equality ignores. -/
def PathBuf.display (platform : Platform) (path : PathBuf) : Str :=
  (path.drive.map PathPrefix.display).getD [] ++
    (if path.rooted then [platform.mainSeparator] else []) ++
    toStringLossy (renderComponents platform path.components)

/-- What a directory entry may be called: not empty, not a dot name, and free of
separators (on Windows also of colons). -/
structure IsFileName (platform : Platform) (name : OsString) : Prop where
  nonempty : name ≠ []
  not_dot : name ≠ OsString.ofStr ['.']
  not_dotdot : name ≠ OsString.ofStr ['.', '.']
  no_sep : ∀ c, .char c ∈ name → platform.isSeparator c = false
  no_colon : platform = .windows → .char ':' ∉ name

/-- A name that survives lossy decoding and the replacement of backslashes. -/
def IsPlainName (name : OsString) : Prop :=
  ∃ s : Str, name = OsString.ofStr s ∧ '\\' ∉ s

theorem ofStr_injective : Function.Injective OsString.ofStr := by
  intro s t h
  exact List.map_injective_iff.mpr (fun a b hab => OsUnit.char.inj hab) h

@[simp] theorem toStringLossy_ofStr (s : Str) : toStringLossy (OsString.ofStr s) = s := by
  simp [toStringLossy, OsString.ofStr, OsUnit.lossy, Function.comp_def]

@[simp] theorem descend_components (base : PathBuf) (names : List OsString) :
    (base.descend names).components = base.components ++ names.map .normal := rfl

theorem descend_injective (base : PathBuf) : Function.Injective base.descend := by
  intro xs ys h
  have hc := congrArg PathBuf.components h
  simp only [descend_components, List.append_cancel_left_eq] at hc
  exact List.map_injective_iff.mpr (fun a b hab => Component.normal.inj hab) hc

theorem stripPrefix_descend (base : PathBuf) (names : List OsString) :
    (base.descend names).stripPrefix base = some (names.map .normal) := by
  simp [PathBuf.stripPrefix, PathBuf.descend]

/-! ## Paths below a root -/

def Component.name? : Component → Option OsString
  | .parentDir => none
  | .normal name => some name

/-- The names that lead from `root` to `path`, when `path` lies below it. -/
def PathBuf.namesBelow (path root : PathBuf) : Option (List OsString) :=
  (path.stripPrefix root).bind fun components => components.mapM Component.name?

/-- Every named component is a file name. -/
def PathBuf.WellFormed (platform : Platform) (path : PathBuf) : Prop :=
  ∀ name, Component.normal name ∈ path.components → IsFileName platform name

theorem mapM_name?_eq_some {components : List Component} {names : List OsString} :
    components.mapM Component.name? = some names ↔ components = names.map .normal := by
  induction components generalizing names with
  | nil => cases names <;> simp
  | cons component components ih =>
      cases component with
      | parentDir => cases names <;> simp [List.mapM_cons, Component.name?]
      | normal name =>
          simp only [List.mapM_cons, Component.name?, Option.pure_def, Option.bind_eq_bind,
            Option.bind_some, Option.bind_eq_some_iff, Option.some.injEq, ih]
          constructor
          · rintro ⟨rest, hrest, rfl⟩
            rw [hrest]
            rfl
          · intro h
            cases names with
            | nil => simp at h
            | cons first names =>
                obtain ⟨hfirst, hrest⟩ := List.cons.inj h
                exact ⟨names, hrest, by rw [Component.normal.inj hfirst]⟩

theorem namesBelow_eq_some {path root : PathBuf} {names : List OsString} :
    path.namesBelow root = some names ↔ path = root.descend names := by
  constructor
  · intro h
    obtain ⟨components, hstrip, hnames⟩ := Option.bind_eq_some_iff.mp h
    unfold PathBuf.stripPrefix at hstrip
    split_ifs at hstrip with hsame hbelow
    obtain ⟨rest, hrest⟩ := hbelow
    rw [← hrest, List.drop_left, Option.some.injEq] at hstrip
    rw [mapM_name?_eq_some] at hnames
    cases path
    simp_all [PathBuf.descend]
  · rintro rfl
    rw [PathBuf.namesBelow, stripPrefix_descend, Option.bind_some, mapM_name?_eq_some]

theorem WellFormed_descend {platform : Platform} {root : PathBuf} {names : List OsString} :
    (root.descend names).WellFormed platform ↔
      root.WellFormed platform ∧ ∀ name ∈ names, IsFileName platform name := by
  simp only [PathBuf.WellFormed, descend_components, List.mem_append, List.mem_map,
    Component.normal.injEq, exists_eq_right]
  constructor
  · exact fun h => ⟨fun name hname => h name (.inl hname), fun name hname => h name (.inr hname)⟩
  · exact fun h name hname => hname.elim (h.1 name) (h.2 name)

/-! ## Parsing relative texts -/

@[simp] theorem isSeparator_mainSeparator (platform : Platform) :
    platform.isSeparator platform.mainSeparator = true := by
  cases platform <;> rfl

/-- The text starts at a root, or on Windows with a prefix. -/
def startsElsewhere (platform : Platform) : Str → Bool
  | [] => false
  | c :: rest =>
      platform.isSeparator c ||
        (decide (platform = .windows) && c.isAlpha && decide (rest.head? = some ':'))

/-- Where no prefix is found, nothing is taken off. -/
theorem parsePrefix_of_none {platform : Platform} {s : Str}
    (h : (parsePrefix platform s).1 = none) : parsePrefix platform s = (none, s) := by
  have hrest : (parsePrefix platform s).2 = s := by
    unfold parsePrefix at h ⊢
    grind
  exact Prod.ext h hrest

theorem parsePrefix_of_startsHere {platform : Platform} {s : Str}
    (h : startsElsewhere platform s = false) : parsePrefix platform s = (none, s) := by
  cases platform with
  | unix => rfl
  | windows =>
      match s with
      | [] => rfl
      | [a] => rfl
      | a :: b :: rest =>
          simp only [startsElsewhere, decide_true, Bool.true_and, List.head?_cons,
            Option.some.injEq, Bool.or_eq_false_iff, Bool.and_eq_false_iff,
            decide_eq_false_iff_not] at h
          by_cases hcolon : b = ':'
          · subst hcolon
            have halpha : a.isAlpha = false := by tauto
            simp [parsePrefix, halpha]
          · simp [parsePrefix, h.1]

theorem parsePath_of_startsHere {platform : Platform} {s : Str}
    (h : startsElsewhere platform s = false) :
    parsePath platform s = ⟨none, false, componentsOf platform s⟩ := by
  unfold parsePath
  rw [parsePrefix_of_startsHere h]
  cases s with
  | nil => rfl
  | cons c rest =>
      have hc : platform.isSeparator c = false := (Bool.or_eq_false_iff.mp h).1
      simp [hc]

/-- What parses to a relative path starts here. -/
theorem startsElsewhere_of_relative {platform : Platform} {s : Str}
    (hdrive : (parsePath platform s).drive = none)
    (hrooted : (parsePath platform s).rooted = false) :
    startsElsewhere platform s = false := by
  change (parsePrefix platform s).1 = none at hdrive
  have hparsed := parsePrefix_of_none hdrive
  cases s with
  | nil => rfl
  | cons c rest =>
      unfold parsePath at hrooted
      simp only [hparsed] at hrooted
      have hdisk : ¬ (platform = .windows ∧ c.isAlpha = true ∧ rest.head? = some ':') := by
        rintro ⟨rfl, halpha, hcolon⟩
        obtain ⟨rest, rfl⟩ := List.head?_eq_some_iff.mp hcolon
        simp [parsePrefix, halpha] at hparsed
      simp only [startsElsewhere, hrooted, Bool.false_or, Bool.and_eq_false_iff,
        decide_eq_false_iff_not]
      rw [← Bool.not_eq_true]
      tauto

/-- A text that starts with no separator and holds no colon names no prefix and no
root. -/
theorem parsePath_relative {platform : Platform} {s : Str}
    (hhead : ∀ c, s.head? = some c → platform.isSeparator c = false)
    (hcolon : platform = .windows → ':' ∉ s) :
    parsePath platform s = ⟨none, false, componentsOf platform s⟩ := by
  apply parsePath_of_startsHere
  cases s with
  | nil => rfl
  | cons c rest =>
      have hdrive : platform = .windows → rest.head? ≠ some ':' := by
        intro hwindows hhead
        exact hcolon hwindows (List.mem_cons_of_mem _ (List.mem_of_head? hhead))
      simp only [startsElsewhere, hhead c rfl, Bool.false_or, Bool.and_eq_false_iff,
        decide_eq_false_iff_not]
      tauto

/-- The names a text parses to are its separator-free pieces. -/
theorem normal_mem_componentsOf {platform : Platform} {s : Str} {name : OsString}
    (h : Component.normal name ∈ componentsOf platform s) :
    ∃ piece, name = OsString.ofStr piece ∧ (∀ c ∈ piece, c ∈ s) ∧
      ∀ c ∈ piece, platform.isSeparator c = false := by
  obtain ⟨piece, hpiece, hcomponent⟩ := List.mem_filterMap.mp h
  refine ⟨piece, ?_, splitAtChars_mem_subset hpiece, splitAtChars_mem_no_sep hpiece⟩
  unfold componentOf at hcomponent
  split_ifs at hcomponent
  · simp at hcomponent
  · simpa using hcomponent.symm

theorem componentOf_fileName {platform : Platform} {s : Str}
    (h : IsFileName platform (OsString.ofStr s)) :
    componentOf s = some (.normal (OsString.ofStr s)) := by
  have hne : s ≠ [] := fun e => h.nonempty (by simp [e, OsString.ofStr])
  have hdot : s ≠ ['.'] := fun e => h.not_dot (by rw [e])
  have hdotdot : s ≠ ['.', '.'] := fun e => h.not_dotdot (by rw [e])
  simp [componentOf, hne, hdot, hdotdot]

theorem IsFileName.no_sep_of_mem {platform : Platform} {s : Str}
    (h : IsFileName platform (OsString.ofStr s)) {c : Char} (hc : c ∈ s) :
    platform.isSeparator c = false :=
  h.no_sep c (List.mem_map_of_mem hc)

/-- Names joined by the main separator parse back to the names. -/
theorem componentsOf_intercalate {platform : Platform} {names : List Str}
    (h : ∀ name ∈ names, IsFileName platform (OsString.ofStr name)) :
    componentsOf platform ([platform.mainSeparator].intercalate names) =
      names.map fun name => .normal (OsString.ofStr name) := by
  by_cases hne : names = []
  · subst hne
    rfl
  · unfold componentsOf
    rw [splitAtChars_intercalate (isSeparator_mainSeparator platform) hne
      fun name hname c hc => (h name hname).no_sep_of_mem hc]
    rw [← List.filterMap_eq_map]
    exact List.filterMap_congr fun name hname => componentOf_fileName (h name hname)

end AbixioUi.Foundation
