import AbixioUi.Sync.Filter

/-! # Enumeration of the two endpoint kinds

An S3 side is what the server lists under the prefix; a local side is what the
directory walk yields. Both become sync objects with a path relative to their
root, and both are filtered object by object.
-/

namespace AbixioUi

open Foundation

structure ObjectInfo where
  key : Str
  size : Nat
  lastModified : Str
  etag : Str
deriving DecidableEq, Repr

def nonEmptyText (text : Str) : Option Str := if text = [] then none else some text

/-- A key as the listing shows it: the prefix removed, then leading slashes. -/
def listedPath (keyPrefix key : Str) : Str :=
  trimStartMatches '/' ((stripPrefix keyPrefix key).getD key)

def ObjectInfo.toSyncObject (keyPrefix : Str) (object : ObjectInfo) : SyncObject where
  relativePath := listedPath keyPrefix object.key
  size := object.size
  modified := nonEmptyText object.lastModified
  etag := nonEmptyText object.etag
  isDirMarker := false

def listObjectsRecursiveForSync (keyPrefix : Str) (objects : List ObjectInfo) :
    List SyncObject :=
  objects.map (ObjectInfo.toSyncObject keyPrefix)

/-- The listing filtered at the given readings; `none` is a panic. -/
def enumerateS3ForSync (time : TimeCodec) (clock : Nat → ClockReadings) (keyPrefix : Str)
    (filters : SyncFilterSet) (objects : List ObjectInfo) : Option (List SyncObject) :=
  filterListing time filters clock (listObjectsRecursiveForSync keyPrefix objects)

/-! ## Local directories -/

structure FileMetadata where
  len : Nat
  modified : Option Int
deriving DecidableEq, Repr

/-- One entry of the directory walk; reading its metadata can fail. -/
structure WalkEntry where
  path : PathBuf
  isDir : Bool
  metadata : Except String FileMetadata

def relativePath (platform : Platform) (root path : PathBuf) : Except String Str :=
  match path.stripPrefix root with
  | none => .error "prefix not found"
  | some components =>
      .ok (normalizeRelativePath (toStringLossy (renderComponents platform components)))

def WalkEntry.toSyncObject (time : TimeCodec) (platform : Platform) (root : PathBuf)
    (entry : WalkEntry) : Except String SyncObject := do
  let relative ← relativePath platform root entry.path
  let metadata ← entry.metadata
  return {
    relativePath := relative
    size := metadata.len
    modified := metadata.modified.bind time.format
    etag := none
    isDirMarker := false }

/-- The walk in order: the first failure ends it, directories are passed over and
files are kept when they pass; the outer `none` is a panic. -/
def enumerateLocalForSync (time : TimeCodec) (platform : Platform) (root : PathBuf)
    (filters : SyncFilterSet) :
    (Nat → ClockReadings) → List (Except String WalkEntry) →
      Option (Except String (List SyncObject))
  | _, [] => some (.ok [])
  | _, .error error :: _ => some (.error error)
  | clock, .ok entry :: entries =>
      if entry.isDir then enumerateLocalForSync time platform root filters clock entries
      else match entry.toSyncObject time platform root with
        | .error error => some (.error error)
        | .ok object =>
            match applySyncFilters time (clock 0) object filters with
            | none => none
            | some keep =>
                (enumerateLocalForSync time platform root filters (fun i => clock (i + 1))
                  entries).map fun result => result.map fun kept =>
                    if keep then object :: kept else kept

/-- Every file of the walk, before filtering. -/
def walkListing (time : TimeCodec) (platform : Platform) (root : PathBuf) :
    List (Except String WalkEntry) → Except String (List SyncObject)
  | [] => .ok []
  | .error error :: _ => .error error
  | .ok entry :: entries =>
      if entry.isDir then walkListing time platform root entries
      else do
        let object ← entry.toSyncObject time platform root
        let objects ← walkListing time platform root entries
        return object :: objects

/-- A finished walk is the filtered listing of its files. -/
theorem enumerateLocalForSync_eq_filterListing {time : TimeCodec} {platform : Platform}
    {root : PathBuf} {filters : SyncFilterSet} {clock : Nat → ClockReadings}
    {entries : List (Except String WalkEntry)} {listing : List SyncObject}
    (h : walkListing time platform root entries = .ok listing) :
    enumerateLocalForSync time platform root filters clock entries =
      (filterListing time filters clock listing).map .ok := by
  induction entries generalizing clock listing with
  | nil =>
      obtain rfl : [] = listing := by simpa [walkListing] using h
      rfl
  | cons entry entries ih =>
      cases entry with
      | error e => simp [walkListing] at h
      | ok entry =>
          by_cases hdir : entry.isDir = true
          · simp only [walkListing, hdir, if_true] at h
            simp [enumerateLocalForSync, hdir, ih h]
          · simp only [walkListing, hdir, Bool.false_eq_true, if_false] at h
            cases hobject : entry.toSyncObject time platform root with
            | error e => simp [hobject, bind, Except.bind] at h
            | ok object =>
                cases hrest : walkListing time platform root entries with
                | error e => simp [hobject, hrest, bind, Except.bind] at h
                | ok objects =>
                    simp only [hobject, hrest, bind, Except.bind, pure, Except.pure,
                      Except.ok.injEq] at h
                    subst h
                    simp only [enumerateLocalForSync, hdir, Bool.false_eq_true, if_false, hobject,
                      filterListing]
                    cases applySyncFilters time (clock 0) object filters with
                    | none => rfl
                    | some keep => simp [ih hrest, Function.comp_def, Except.map]

/-! ## What the planner gets -/

/-- What a side holds, and what its enumeration passes on to the planner. -/
inductive Enumerated (time : TimeCodec) (filters : SyncFilterSet) :
    List SyncObject → List SyncObject → Prop
  | s3 {clock : Nat → ClockReadings} {keyPrefix : Str} {objects : List ObjectInfo}
      {kept : List SyncObject}
      (passed : enumerateS3ForSync time clock keyPrefix filters objects = some kept) :
      Enumerated time filters (listObjectsRecursiveForSync keyPrefix objects) kept
  | «local» {platform : Platform} {root : PathBuf} {clock : Nat → ClockReadings}
      {entries : List (Except String WalkEntry)} {listing kept : List SyncObject}
      (walked : walkListing time platform root entries = .ok listing)
      (passed : enumerateLocalForSync time platform root filters clock entries =
        some (.ok kept)) :
      Enumerated time filters listing kept

/-- Either way the planner gets the listing, filtered. -/
theorem Enumerated.filterListing {time : TimeCodec} {filters : SyncFilterSet}
    {listing kept : List SyncObject} (h : Enumerated time filters listing kept) :
    ∃ clock, filterListing time filters clock listing = some kept := by
  cases h with
  | s3 passed => exact ⟨_, passed⟩
  | «local» walked passed =>
      rw [enumerateLocalForSync_eq_filterListing walked] at passed
      obtain ⟨filtered, hfiltered, hkept⟩ := Option.map_eq_some_iff.mp passed
      exact ⟨_, Except.ok.inj hkept ▸ hfiltered⟩

end AbixioUi
