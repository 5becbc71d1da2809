import AbixioUi.Glob
import AbixioUi.Types

/-! # Sync filters

Pattern, size and age filters, evaluated on one object of one side. Timestamps
are read by the `time` crate, which enters as `TimeCodec`; instants are
nanoseconds since the epoch. Relative ages read the clock where the filter is
evaluated, so the readings are arguments.
-/

namespace AbixioUi

open Foundation

/-- RFC 3339 formatting and parsing. A formatted instant parses back to itself. -/
structure TimeCodec where
  parse : Str → Option Int
  format : Int → Option Str
  parse_format : ∀ instant text, format instant = some text → parse text = some instant

/-- A codec for listings without readable times. -/
def noTimes : TimeCodec where
  parse := fun _ => none
  format := fun _ => none
  parse_format := by simp

/-- Clock readings of one evaluation of the two age filters. -/
structure ClockReadings where
  newerThan : Int
  olderThan : Int
deriving DecidableEq, Repr

def normalizeRelativePath (path : Str) : Str :=
  trimStartMatches '/' (replaceChar '\\' '/' path)

def parsePatterns (text : Str) : List Str :=
  ((splitAtChars (· == '\n') text).map trim).filter (· ≠ [])

def parseSizeFilter (text : Str) : Option Nat :=
  let text := trim text
  if text = [] then none
  else
    let textLower := toAsciiLowercase text
    let (numPart, multiplier) :=
      if endsWith 't' textLower then (text.dropLast, 1024 * 1024 * 1024 * 1024)
      else if endsWith 'g' textLower then (text.dropLast, 1024 * 1024 * 1024)
      else if endsWith 'm' textLower then (text.dropLast, 1024 * 1024)
      else if endsWith 'k' textLower then (text.dropLast, 1024)
      else if endsWith 'b' textLower then (text.dropLast, 1)
      else (text, 1)
    match parseUnsigned 64 (trim numPart) with
    | none => none
    | some num => if num * multiplier < 2 ^ 64 then some (num * multiplier) else none

/-- Seconds of one unit of a relative age. -/
def ageUnitSeconds : Char → Option Int
  | 's' => some 1
  | 'm' => some 60
  | 'h' => some 3600
  | 'd' => some 86400
  | 'w' => some (7 * 86400)
  | 'M' => some (30 * 86400)
  | 'y' => some (365 * 86400)
  | _ => none

def fitsI64 (n : Int) : Bool := decide (-2 ^ 63 ≤ n ∧ n < 2 ^ 63)

/-- The loop over a relative age: digits buffered so far, seconds so far. The
outer `none` is an arithmetic overflow, the inner one a rejected text. -/
def parseAgeSegments : Str → Str → Int → Bool → Option (Option Int)
  | [], numBuf, total, found => some (if found ∧ numBuf = [] then some total else none)
  | ch :: rest, numBuf, total, found =>
      if ch.isDigit then parseAgeSegments rest (numBuf ++ [ch]) total found
      else match parseUnsigned 63 numBuf, ageUnitSeconds ch with
        | none, _ => some none
        | some _, none => some none
        | some n, some unit =>
            if fitsI64 (n * unit) ∧ fitsI64 (total + n * unit) then
              parseAgeSegments rest [] (total + n * unit) true
            else none

def minInstant : Int := -377705116800 * 10 ^ 9
def maxInstant : Int := 253402300800 * 10 ^ 9 - 1

/-- The cutoff of an age filter. The outer `none` is a panic: an overflow of the
seconds, or a cutoff outside the representable dates. -/
def parseAgeFilter (time : TimeCodec) (now : Int) (text : Str) : Option (Option Int) :=
  let text := trim text
  if text = [] then some none
  else match time.parse text with
    | some dt => some (some dt)
    | none =>
        match parseAgeSegments text [] 0 false with
        | none => none
        | some none => some none
        | some (some seconds) =>
            let cutoff := now - seconds * 10 ^ 9
            if minInstant ≤ cutoff ∧ cutoff ≤ maxInstant then some (some cutoff) else none

def parseObjectModified (time : TimeCodec) (modified : Option Str) : Option Int :=
  modified.bind time.parse

/-- Whether some pattern matches, trying them in order; `none` is a panic. -/
def anyPatternMatches : List Str → Str → Option Bool
  | [], _ => some false
  | pattern :: patterns, path =>
      match wildcardMatch pattern path with
      | none => none
      | some true => some true
      | some false => anyPatternMatches patterns path

/-- An age filter passes when it is absent, or the object has a readable modified
time on the right side of the cutoff. -/
def ageFilterPasses (time : TimeCodec) (now : Int) (text : Str) (modified : Option Str)
    (rejects : Int → Int → Bool) : Option Bool :=
  match parseAgeFilter time now text with
  | none => none
  | some none => some true
  | some (some cutoff) =>
      match parseObjectModified time modified with
      | some instant => some (!rejects instant cutoff)
      | none => some false

/-- Evaluate the next check only when the previous one passed. -/
def andThenCheck (check : Option Bool) (next : Option Bool) : Option Bool :=
  match check with
  | some true => next
  | other => other

def sizeFilterPasses (filters : SyncFilterSet) (size : Nat) : Bool :=
  (match parseSizeFilter filters.minSizeText with
    | some minSize => !decide (size < minSize)
    | none => true) &&
  (match parseSizeFilter filters.maxSizeText with
    | some maxSize => !decide (size > maxSize)
    | none => true)

/-- Whether the object passes every filter; `none` is a panic. -/
def applySyncFilters (time : TimeCodec) (now : ClockReadings) (object : SyncObject)
    (filters : SyncFilterSet) : Option Bool :=
  let includePatterns := parsePatterns filters.includePatternsText
  let excludePatterns := parsePatterns filters.excludePatternsText
  andThenCheck (some (sizeFilterPasses filters object.size)) <|
  andThenCheck (if includePatterns = [] then some true
    else anyPatternMatches includePatterns object.relativePath) <|
  andThenCheck ((anyPatternMatches excludePatterns object.relativePath).map (!·)) <|
  andThenCheck (ageFilterPasses time now.newerThan filters.newerThanText object.modified
    fun instant cutoff => decide (instant < cutoff)) <|
  ageFilterPasses time now.olderThan filters.olderThanText object.modified
    fun instant cutoff => decide (instant > cutoff)

/-- Keep the objects that pass, in order, each evaluated at its own clock
readings; `none` is a panic of one evaluation. -/
def filterListing (time : TimeCodec) (filters : SyncFilterSet) :
    (Nat → ClockReadings) → List SyncObject → Option (List SyncObject)
  | _, [] => some []
  | clock, object :: objects =>
      match applySyncFilters time (clock 0) object filters with
      | none => none
      | some keep =>
          (filterListing time filters (fun i => clock (i + 1)) objects).map fun kept =>
            if keep then object :: kept else kept

/-! ## What a filtered listing holds -/

/-- The object at a position of the listing passed at its own readings. -/
def PassesAt (time : TimeCodec) (filters : SyncFilterSet) (clock : Nat → ClockReadings)
    (listing : List SyncObject) (object : SyncObject) : Prop :=
  ∃ i, listing[i]? = some object ∧ applySyncFilters time (clock i) object filters = some true

theorem mem_filterListing {time : TimeCodec} {filters : SyncFilterSet}
    {clock : Nat → ClockReadings} {listing kept : List SyncObject}
    (h : filterListing time filters clock listing = some kept) (object : SyncObject) :
    object ∈ kept ↔ PassesAt time filters clock listing object := by
  induction listing generalizing clock kept with
  | nil =>
      obtain rfl : [] = kept := by simpa [filterListing] using h
      simp [PassesAt]
  | cons first rest ih =>
      unfold filterListing at h
      cases hf : applySyncFilters time (clock 0) first filters with
      | none => simp [hf] at h
      | some keep =>
          simp only [hf, Option.map_eq_some_iff] at h
          obtain ⟨tail, htail, rfl⟩ := h
          have hrest := ih htail
          constructor
          · intro hmem
            by_cases htop : keep = true ∧ object = first
            · obtain ⟨rfl, rfl⟩ := htop
              exact ⟨0, rfl, hf⟩
            · have : object ∈ tail := by
                cases keep <;> simp_all
              obtain ⟨i, hi, hp⟩ := hrest.mp this
              exact ⟨i + 1, by simpa using hi, hp⟩
          · rintro ⟨i, hi, hp⟩
            cases i with
            | zero =>
                obtain rfl : first = object := by simpa using hi
                rw [hf] at hp
                obtain rfl := Option.some.inj hp
                simp
            | succ i =>
                have : object ∈ tail := hrest.mpr ⟨i, by simpa using hi, hp⟩
                cases keep <;> simp [this]

theorem PassesAt.mem {time : TimeCodec} {filters : SyncFilterSet} {clock : Nat → ClockReadings}
    {listing : List SyncObject} {object : SyncObject}
    (h : PassesAt time filters clock listing object) : object ∈ listing := by
  obtain ⟨i, hi, _⟩ := h
  exact List.mem_of_getElem? hi

theorem mem_of_mem_filterListing {time : TimeCodec} {filters : SyncFilterSet}
    {clock : Nat → ClockReadings} {listing kept : List SyncObject}
    (h : filterListing time filters clock listing = some kept) {object : SyncObject}
    (hmem : object ∈ kept) : object ∈ listing :=
  ((mem_filterListing h object).mp hmem).mem

/-- Without filter texts every object passes. -/
theorem applySyncFilters_empty (time : TimeCodec) (now : ClockReadings) (object : SyncObject) :
    applySyncFilters time now object ⟨[], [], [], [], [], []⟩ = some true := by
  simp [applySyncFilters, andThenCheck, sizeFilterPasses, parseSizeFilter, parsePatterns,
    splitAtChars, trim, anyPatternMatches, ageFilterPasses, parseAgeFilter]

theorem filterListing_empty (time : TimeCodec) (clock : Nat → ClockReadings)
    (listing : List SyncObject) :
    filterListing time ⟨[], [], [], [], [], []⟩ clock listing = some listing := by
  induction listing generalizing clock with
  | nil => rfl
  | cons object objects ih => simp [filterListing, applySyncFilters_empty, ih]

end AbixioUi
