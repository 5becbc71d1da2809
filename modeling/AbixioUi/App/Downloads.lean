import AbixioUi.Foundation.Resolve
import AbixioUi.Sync.Addressing

/-! # Where downloads go

An export and a sync to a local folder make the path of a download from the key of a
listed object: what follows the prefix, with its slashes replaced, is joined to the
folder. Neither checks what the key spells.
-/

namespace AbixioUi

open Foundation

/-! ## The paths of the downloads -/

def prepareExportItems (platform : Platform) (bucket keyPrefix : Str) (root : PathBuf)
    (listing : Except String (List ObjectInfo)) : Except String (List TransferItem) := do
  let objects ← listing
  return objects.map fun object =>
    let relative := replaceChar '/' '\\' ((stripPrefix keyPrefix object.key).getD object.key)
    { source := .s3 CURRENT_CONNECTION_ID bucket object.key
      destination := .local (root.join platform relative) }

/-- The objects that a sync lists on its source side, with the endpoints it downloads
them to. -/
def syncDownloads (platform : Platform) (sync : SyncState) (objects : List ObjectInfo) :
    Except String (List TransferItem) :=
  objects.mapM fun object => do
    let destination ← buildTransferEndpoint platform sync false
      (object.toSyncObject sync.sourcePrefix).relativePath
    return {
      source := .s3 sync.sourceConnectionId sync.sourceBucket object.key
      destination := destination }

/-- What an export joins to the folder. Backslashes are no separators on Unix. -/
def exportFragment (keyPrefix key : Str) : Str :=
  replaceChar '/' '\\' ((stripPrefix keyPrefix key).getD key)

/-- What a sync joins to the folder. -/
def syncFragment (platform : Platform) (keyPrefix key : Str) : Str :=
  fragmentOf platform (listedPath keyPrefix key)

/-! ## Inside the folder -/

/-- Every item is downloaded to a path below the folder, and no two of them to one. -/
structure Confines (root : PathBuf) (items : List TransferItem) : Prop where
  below : ∀ item ∈ items, ∃ path, item.destination = .local path ∧ path.StrictlyBelow root
  distinct : ∀ item ∈ items, ∀ other ∈ items, item.source ≠ other.source →
    item.destination ≠ other.destination

/-- What is joined for each key leads below the folder, and no two keys spell the same
parts. -/
structure SafeKeys (platform : Platform) (fragment : Str → Str) (objects : List ObjectInfo) :
    Prop where
  below : ∀ object ∈ objects, StaysBelow platform (fragment object.key)
  distinct : ∀ object ∈ objects, ∀ other ∈ objects, object.key ≠ other.key →
    partsOf platform (fragment object.key) ≠ partsOf platform (fragment other.key)

/-- The items of a download that joins a fragment of each key. -/
def downloadItems (platform : Platform) (connectionId bucket : Str) (root : PathBuf)
    (fragment : Str → Str) (objects : List ObjectInfo) : List TransferItem :=
  objects.map fun object =>
    { source := .s3 connectionId bucket object.key
      destination := .local (root.join platform (fragment object.key)) }

section Downloads

variable {platform : Platform} {objects : List ObjectInfo}

theorem prepareExportItems_eq (bucket keyPrefix : Str) (root : PathBuf) :
    prepareExportItems platform bucket keyPrefix root (.ok objects) =
      .ok (downloadItems platform CURRENT_CONNECTION_ID bucket root (exportFragment keyPrefix)
        objects) := rfl

theorem syncDownloads_eq {sync : SyncState} {root : PathBuf} (hkind : sync.destinationKind = .local)
    (hroot : sync.destinationLocalPath = some root) :
    syncDownloads platform sync objects =
      .ok (downloadItems platform sync.sourceConnectionId sync.sourceBucket root
        (syncFragment platform sync.sourcePrefix) objects) := by
  have hendpoint : ∀ path, buildTransferEndpoint platform sync false path =
      .ok (.local (root.join platform (fragmentOf platform path))) := by
    intro path
    simp [buildTransferEndpoint, hkind, hroot, fragmentOf]
  unfold syncDownloads downloadItems
  simp only [hendpoint]
  induction objects with
  | nil => rfl
  | cons object objects ih =>
      rw [List.mapM_cons, ih]
      rfl

variable {connectionId bucket : Str} {fragment : Str → Str}

theorem SafeKeys.confines (h : SafeKeys platform fragment objects) (root : PathBuf) :
    Confines root (downloadItems platform connectionId bucket root fragment objects) := by
  constructor
  · intro item hitem
    obtain ⟨object, hobject, rfl⟩ := List.mem_map.mp hitem
    exact ⟨_, rfl, (h.below object hobject).strictlyBelow root⟩
  · intro item hitem other hother hsource hsame
    obtain ⟨object, hobject, rfl⟩ := List.mem_map.mp hitem
    obtain ⟨object', hobject', rfl⟩ := List.mem_map.mp hother
    have hkey : object.key ≠ object'.key := by
      intro hkey
      rw [hkey] at hsource
      exact hsource rfl
    apply h.distinct object hobject object' hobject' hkey
    exact (join_eq_join_iff (h.below object hobject).1 (h.below object' hobject').1 root).mp
      (TransferEndpoint.local.inj hsame)

theorem safeKeys_of_confines
    (h : Confines .empty (downloadItems platform connectionId bucket .empty fragment objects)) :
    SafeKeys platform fragment objects := by
  have hbelow : ∀ object ∈ objects, StaysBelow platform (fragment object.key) := by
    intro object hobject
    obtain ⟨path, hpath, hstrictly⟩ := h.below _ (List.mem_map_of_mem hobject)
    rw [← TransferEndpoint.local.inj hpath] at hstrictly
    exact staysBelow_of_empty hstrictly
  refine ⟨hbelow, fun object hobject other hother hkey hparts => ?_⟩
  have hjoin := (join_eq_join_iff (hbelow object hobject).1 (hbelow other hother).1 .empty).mpr
    hparts
  apply h.distinct _ (List.mem_map_of_mem hobject) _ (List.mem_map_of_mem hother)
  · intro hsource
    exact hkey (TransferEndpoint.s3.inj hsource).2.2
  · exact congrArg TransferEndpoint.local hjoin

end Downloads

/-- The folder `C:\downloads`. -/
def downloadsFolder : PathBuf where
  drive := some (.disk 'C')
  rooted := true
  components := [.normal (OsString.ofStr "downloads".toList)]

/-- A key that leads above its prefix. -/
def keyAbove : List ObjectInfo := [⟨"logs/../x".toList, 1, [], []⟩]

/-- A sync of `logs/` into the folder. -/
def logsToFolder : SyncState :=
  { SyncState.new CURRENT_CONNECTION_ID with
    sourcePrefix := "logs/".toList
    destinationKind := .local
    destinationLocalPath := some downloadsFolder }

end AbixioUi
