import AbixioUi.Browse.State

/-! # Handlers of the browser

Selecting, listing, searching and marking objects; the panel of the selected object
with its tags and versions; the documents and tags of the selected bucket; and what
connecting and deleting a bucket do to all of it.
-/

namespace AbixioUi

open Foundation

/-- The JSON and XML readers behind the document editor. -/
structure DocumentFormats where
  Json : Type
  jsonFromStr : Str → Except String Json
  jsonToStringPretty : Json → Except String Str
  xml : Lifecycle.XmlCodec

namespace Browser

/-! ## Selecting -/

def fetchObjectPanel (browser : Browser) (object : ObjectId) : List BrowserTask :=
  let client := browser.app.client
  [.fetchDetail client object] ++
    (if browser.isAbixio && browser.hasAdmin then [.fetchObjectInspect object] else []) ++
    [.fetchTags client object, .fetchVersions client object, .fetchPreview client object]

def handleSelectBucket (browser : Browser) (name : Str) : Browser × List BrowserTask :=
  let app :=
    { browser.app with
      selectedBucket := some name
      currentPrefix := []
      selectedKeys := []
      selection := .bucket name }
  let browser :=
    { { browser with app := app, objectFilter := [], findResults := none }.clearObjectAdminState
        |>.resetBucketDocumentStates with bucketTags := none }
  let (browser, tasks) := browser.loadObjects
  (browser, tasks ++
    [.fetchBucketDocument browser.app.client .policy name,
      .fetchBucketDocument browser.app.client .lifecycle name,
      .fetchBucketTags browser.app.client name])

def handleNavigatePrefix (browser : Browser) (keyPrefix : Str) : Browser × List BrowserTask :=
  let app :=
    { browser.app with currentPrefix := keyPrefix, selectedKeys := [], selection := .none }
  { browser with
    app := app, objectFilter := [], findResults := none }.clearObjectAdminState.loadObjects

def handleSelectObject (browser : Browser) (key : Str) : Browser × List BrowserTask :=
  let bucket := browser.app.selectedBucket.getD []
  let browser := browser.clearObjectAdminState
  let browser :=
    { browser with
      app := { browser.app with selection := .object bucket key }
      loadingDetail := true
      loadingTags := true
      loadingVersions := true
      objectTags := none
      objectVersions := none }
  if browser.isAbixio && browser.hasAdmin then
    ({ browser with loadingObjectInspect := true, objectInspectTarget := some (bucket, key) },
      browser.fetchObjectPanel (bucket, key))
  else (browser, browser.fetchObjectPanel (bucket, key))

def handleClearSelection (browser : Browser) : Browser × List BrowserTask :=
  let browser :=
    { browser with app := { browser.app with selection := .none } }.clearObjectAdminState
  ({ browser with
     bucketPolicy := browser.bucketPolicy.cancelEditing
     bucketLifecycle := browser.bucketLifecycle.cancelEditing }, [])

/-! ## Listing -/

def handleBucketsLoaded (browser : Browser) (result : Except String (List Str)) :
    Browser × List BrowserTask :=
  ({ browser with
     app := { browser.app with loadingBuckets := false, buckets := some result } }, [])

def handleObjectsLoaded (browser : Browser)
    (result : Traced ListingRequest (Except String ListObjectsResult)) :
    Browser × List BrowserTask :=
  ({ browser with
     app := { browser.app with loadingObjects := false }
     objects := some result }, [])

def handleRefresh (browser : Browser) : Browser × List BrowserTask :=
  { browser with
    findResults := none
    app := { browser.app with selectedKeys := [] } }.loadObjects

def handleRefreshAll (browser : Browser) : Browser × List BrowserTask :=
  ({ browser with app := { browser.app with loadingBuckets := true } }, browser.fetchBuckets)

def handleObjectFilterChanged (browser : Browser) (value : Str) : Browser × List BrowserTask :=
  ({ browser with objectFilter := value }, [])

def handleFind (browser : Browser) : Browser × List BrowserTask :=
  match browser.app.selectedBucket with
  | none => (browser, [])
  | some bucket =>
      if browser.objectFilter = [] then (browser, [])
      else
        ({ browser with finding := true, findResults := none },
          [.find browser.app.client ⟨bucket, browser.app.currentPrefix⟩ browser.objectFilter])

def handleFindComplete (browser : Browser)
    (result : Traced ListingRequest (Except String ListObjectsResult)) :
    Browser × List BrowserTask :=
  ({ browser with finding := false, findResults := some result }, [])

def handleClearFind (browser : Browser) : Browser × List BrowserTask :=
  ({ browser with
     findResults := none
     app := { browser.app with selectedKeys := [] } }, [])

/-! ## Marking objects -/

/-- A set of keys without repetitions. -/
def insertKey (keys : List Str) (key : Str) : List Str :=
  if key ∈ keys then keys else keys ++ [key]

theorem mem_insertKey {keys : List Str} {added key : Str} :
    key ∈ insertKey keys added ↔ key ∈ keys ∨ key = added := by
  unfold insertKey
  split
  next hheld =>
    constructor
    · exact .inl
    · rintro (hkept | hadded)
      · exact hkept
      · rw [hadded]
        exact hheld
  next => rw [List.mem_append, List.mem_singleton]

/-- Marking adds the keys it is given, and no others. -/
theorem mem_insertKeys {keys added : List Str} {key : Str} :
    key ∈ added.foldl insertKey keys ↔ key ∈ keys ∨ key ∈ added := by
  induction added generalizing keys with
  | nil => simp
  | cons first added ih =>
      show key ∈ added.foldl insertKey (insertKey keys first) ↔ _
      rw [ih, mem_insertKey, List.mem_cons, or_assoc]

def handleToggleObjectSelected (browser : Browser) (key : Str) : Browser × List BrowserTask :=
  let keys := browser.app.selectedKeys
  ({ browser with
     app :=
       { browser.app with
         selectedKeys := if key ∈ keys then keys.filter (· ≠ key) else keys ++ [key] } }, [])

/-- Whether the filter shows the object of this key. -/
def showsKey (browser : Browser) (key : Str) : Bool :=
  let filter := toAsciiLowercase browser.objectFilter
  let display := (stripPrefix browser.app.currentPrefix key).getD key
  decide (filter = []) || contains (toAsciiLowercase display) filter

/-- The keys that selecting all objects adds. -/
def allKeys (browser : Browser) : List Str :=
  (match browser.objects with
    | some ⟨.ok result, _⟩ => result.objects.filter browser.showsKey
    | _ => []) ++
  match browser.findResults with
    | some ⟨.ok result, _⟩ => result.objects
    | _ => []

def handleSelectAllObjects (browser : Browser) : Browser × List BrowserTask :=
  ({ browser with
     app :=
       { browser.app with
         selectedKeys := browser.allKeys.foldl insertKey browser.app.selectedKeys } }, [])

def handleClearObjectSelection (browser : Browser) : Browser × List BrowserTask :=
  ({ browser with app := { browser.app with selectedKeys := [] } }, [])

/-! ## Uploading and deleting an object, creating a bucket -/

/-- The file is the answer of the file dialog. -/
def handleUpload (browser : Browser) (file : Option Str) : Browser × List BrowserTask :=
  match file, browser.app.selectedBucket with
  | some filename, some bucket =>
      (browser, [.uploadFile browser.app.client (bucket, browser.app.currentPrefix ++ filename)])
  | _, _ => (browser, [])

def handleUploadDone (browser : Browser) (result : Except String Unit) :
    Browser × List BrowserTask :=
  match result with
  | .ok () => browser.loadObjects
  | .error e => (browser.withError ("Upload failed: " ++ e), [])

def handleDelete (browser : Browser) (object : ObjectId) : Browser × List BrowserTask :=
  (browser, [.deleteObject browser.app.client object])

def handleDeleteDone (browser : Browser) (result : Except String Unit) :
    Browser × List BrowserTask :=
  match result with
  | .ok () =>
      { browser with app := { browser.app with selection := .none } }.clearObjectAdminState
        |>.resetBucketDocumentStates.loadObjects
  | .error e => (browser.withError ("Delete failed: " ++ e), [])

def handleNewBucketNameChanged (browser : Browser) (value : Str) : Browser × List BrowserTask :=
  ({ browser with newBucketName := value, createBucketModalError := none }, [])

def handleOpenCreateBucketModal (browser : Browser) : Browser × List BrowserTask :=
  ({ browser with
     newBucketName := [], createBucketModalError := none, createBucketModalOpen := true }, [])

def handleCloseCreateBucketModal (browser : Browser) : Browser × List BrowserTask :=
  ({ browser with createBucketModalOpen := false, createBucketModalError := none }, [])

def handleCreateBucket (browser : Browser) : Browser × List BrowserTask :=
  let name := trim browser.newBucketName
  if name = [] then
    ({ browser with createBucketModalError := some "Bucket name is required." }, [])
  else ({ browser with createBucketModalError := none }, [.createBucket browser.app.client name])

def handleCreateBucketDone (browser : Browser) (bucket : Str) (result : Except String Unit) :
    Browser × List BrowserTask :=
  match result with
  | .ok () =>
      let app :=
        { browser.app with
          selectedBucket := some bucket
          selection := .bucket bucket
          currentPrefix := []
          selectedKeys := []
          loadingBuckets := true }
      let browser :=
        { browser with
          app := app
          createBucketModalOpen := false
          createBucketModalError := none
          objectFilter := []
          findResults := none
          objects := none
          detail := none }.resetBucketDocumentStates
      let (browser, tasks) := browser.loadObjects
      (browser, browser.fetchBuckets ++ tasks)
  | .error e =>
      ({ browser with createBucketModalError := some e }.withError
        ("Create bucket failed: " ++ e), [])

/-! ## The panel of the selected object -/

def handleDetailLoaded (browser : Browser)
    (result : Traced ObjectId (Except String ObjectDetail)) : Browser × List BrowserTask :=
  ({ browser with loadingDetail := false, detail := some result }, [])

def handlePreviewLoaded (browser : Browser) (result : Traced ObjectId (Except String Str)) :
    Browser × List BrowserTask :=
  ({ browser with objectPreview := some result }, [])

def handleVersionsLoaded (browser : Browser)
    (result : Traced ObjectId (Except String (List VersionInfo))) :
    Browser × List BrowserTask :=
  ({ browser with loadingVersions := false, objectVersions := some result }, [])

def handleDeleteVersion (browser : Browser) (versionId : Str) : Browser × List BrowserTask :=
  match browser.app.currentSelectedObject with
  | some object =>
      ({ browser with loadingVersions := true },
        [.deleteVersion browser.app.client object versionId])
  | none => (browser, [])

def handleVersionDeleted (browser : Browser) (result : Except String Unit) :
    Browser × List BrowserTask :=
  match result with
  | .ok () =>
      match browser.app.currentSelectedObject with
      | some object => (browser, [.fetchVersions browser.app.client object])
      | none => ({ browser with loadingVersions := false }, [])
  | .error e =>
      ({ browser with loadingVersions := false }.withError ("version delete failed: " ++ e), [])

def handleRestoreVersion (browser : Browser) (versionId : Str) : Browser × List BrowserTask :=
  match browser.app.currentSelectedObject with
  | some object =>
      ({ browser with loadingVersions := true },
        [.restoreVersion browser.app.client object versionId])
  | none => (browser, [])

def handleVersionRestored (browser : Browser) (result : Except String Unit) :
    Browser × List BrowserTask :=
  match result with
  | .ok () =>
      match browser.app.currentSelectedObject with
      | some object =>
          (browser, [.fetchVersions browser.app.client object,
            .fetchDetail browser.app.client object])
      | none => ({ browser with loadingVersions := false }, [])
  | .error e =>
      ({ browser with loadingVersions := false }.withError ("version restore failed: " ++ e), [])

/-! ## Tags of the selected object -/

/-- An absent or failed result is edited as an empty map. -/
def heldTags : Option (Traced TagRead (Except String Tags)) → Tags
  | some ⟨.ok tags, _⟩ => tags
  | _ => ∅

def handleTagsLoaded (browser : Browser) (result : Traced TagRead (Except String Tags)) :
    Browser × List BrowserTask :=
  ({ browser with loadingTags := false, objectTags := some result }, [])

def handleTagKeyChanged (browser : Browser) (value : Str) : Browser × List BrowserTask :=
  ({ browser with editingTagKey := value }, [])

def handleTagValueChanged (browser : Browser) (value : Str) : Browser × List BrowserTask :=
  ({ browser with editingTagValue := value }, [])

def handleAddTag (browser : Browser) : Browser × List BrowserTask :=
  let key := trim browser.editingTagKey
  let value := trim browser.editingTagValue
  let tags := heldTags browser.objectTags
  if key = [] then (browser, [])
  else if 10 ≤ tags.keys.length ∧ key ∉ tags then
    (browser.withError "max 10 tags per object", [])
  else
    ({ browser with editingTagKey := [], editingTagValue := [], loadingTags := true },
      match browser.app.currentSelectedObject with
      | some object => [.putTags browser.app.client object (tags.insert key value)]
      | none => [])

def handleRemoveTag (browser : Browser) (tagKey : Str) : Browser × List BrowserTask :=
  let tags := (heldTags browser.objectTags).erase tagKey
  ({ browser with loadingTags := true },
    match browser.app.currentSelectedObject with
    | some object =>
        if tags.keys = [] then [.deleteTags browser.app.client object]
        else [.putTags browser.app.client object tags]
    | none => [])

def handleTagsSaved (browser : Browser) (result : Except String Unit) :
    Browser × List BrowserTask :=
  match result with
  | .ok () =>
      match browser.app.currentSelectedObject with
      | some object => (browser, [.fetchTags browser.app.client object])
      | none => ({ browser with loadingTags := false }, [])
  | .error e => ({ browser with loadingTags := false }.withError ("tag save failed: " ++ e), [])

/-! ## Tags of the selected bucket -/

def handleBucketTagsLoaded (browser : Browser) (result : Traced TagRead (Except String Tags)) :
    Browser × List BrowserTask :=
  ({ browser with bucketTags := some result }, [])

def handleBucketTagKeyChanged (browser : Browser) (value : Str) : Browser × List BrowserTask :=
  ({ browser with bucketTagKey := value }, [])

def handleBucketTagValueChanged (browser : Browser) (value : Str) : Browser × List BrowserTask :=
  ({ browser with bucketTagValue := value }, [])

def handleAddBucketTag (browser : Browser) : Browser × List BrowserTask :=
  let key := trim browser.bucketTagKey
  let value := trim browser.bucketTagValue
  if key = [] then (browser, [])
  else
    ({ browser with bucketTagKey := [], bucketTagValue := [] },
      match browser.app.selectedBucket with
      | some bucket =>
          [.putBucketTags browser.app.client bucket
            ((heldTags browser.bucketTags).insert key value)]
      | none => [])

def handleRemoveBucketTag (browser : Browser) (tagKey : Str) : Browser × List BrowserTask :=
  let tags := (heldTags browser.bucketTags).erase tagKey
  (browser,
    match browser.app.selectedBucket with
    | some bucket =>
        if tags.keys = [] then [.deleteBucketTags browser.app.client bucket]
        else [.putBucketTags browser.app.client bucket tags]
    | none => [])

def handleBucketTagsSaved (browser : Browser) (result : Except String Unit) :
    Browser × List BrowserTask :=
  match result with
  | .ok () =>
      (browser,
        match browser.app.selectedBucket with
        | some bucket => [.fetchBucketTags browser.app.client bucket]
        | none => [])
  | .error e => (browser.withError ("bucket tag save failed: " ++ e), [])

/-! ## Documents of the selected bucket -/

def handleBucketDocumentLoaded (browser : Browser) (kind : BucketDocumentKind)
    (result : Traced Str (Except String (Option Str))) : Browser × List BrowserTask :=
  let loaded := match result.value with
    | .ok (some text) => .loaded text
    | .ok none => .absent
    | .error error => .error error
  (browser.withBucketDocumentState kind (·.setLoaded ⟨loaded, result.asked⟩), [])

def handleOpenBucketDocumentEditor (browser : Browser) (kind : BucketDocumentKind) :
    Browser × List BrowserTask :=
  let change := fun other (state : BucketDocumentState) =>
    if other = kind then state.startEditing else state.cancelEditing
  ((browser.withBucketDocumentState .policy (change .policy)).withBucketDocumentState
    .lifecycle (change .lifecycle), [])

def handleCancelBucketDocumentEditor (browser : Browser) (kind : BucketDocumentKind) :
    Browser × List BrowserTask :=
  (browser.withBucketDocumentState kind (·.cancelEditing), [])

/-- An action of the text editor makes some other text of the text. -/
def handleBucketDocumentEdited (browser : Browser) (kind : BucketDocumentKind)
    (action : Str → Str) : Browser × List BrowserTask :=
  (browser.withBucketDocumentState kind fun state =>
    { state with editor := ⟨action state.editor.value, state.editor.asked⟩ }, [])

/-- The text that is saved, or why it is refused. -/
def normalizeDocument (formats : DocumentFormats) (kind : BucketDocumentKind) (trimmed : Str) :
    Except String Str :=
  match kind with
  | .policy =>
      match formats.jsonFromStr trimmed with
      | .ok json => formats.jsonToStringPretty json
      | .error error => .error ("Invalid JSON: " ++ error)
  | .lifecycle =>
      match Lifecycle.normalizeXml formats.xml trimmed with
      | .ok xml => .ok xml
      | .error error => .error ("Invalid XML: " ++ error)

def handleSaveBucketDocument (formats : DocumentFormats) (browser : Browser)
    (kind : BucketDocumentKind) : Browser × List BrowserTask :=
  match browser.app.selectedBucket with
  | none => (browser, [])
  | some bucket =>
      let text := (browser.bucketDocumentState kind).editor
      let trimmed := trim text.value
      if trimmed = [] then
        (browser.withBucketDocumentState kind
          ({ · with error := some kind.validationEmptyError }), [])
      else
        match normalizeDocument formats kind trimmed with
        | .error error =>
            (browser.withBucketDocumentState kind ({ · with error := some error }), [])
        | .ok normalized =>
            (browser.withBucketDocumentState kind
              ({ · with error := none, saving := true, editor := ⟨normalized, text.asked⟩ }),
              [.putBucketDocument browser.app.client kind bucket ⟨normalized, text.asked⟩])

def handleBucketDocumentSaved (browser : Browser) (kind : BucketDocumentKind)
    (result : Except String Unit) : Browser × List BrowserTask :=
  match result with
  | .ok () =>
      (browser.withBucketDocumentState kind (·.cancelEditing),
        match browser.app.selectedBucket with
        | some bucket => [.fetchBucketDocument browser.app.client kind bucket]
        | none => [])
  | .error error =>
      (browser.withBucketDocumentState kind
        ({ · with saving := false, error := some (kind.saveErrorPrefix ++ ": " ++ error) }), [])

def handleDeleteBucketDocument (browser : Browser) (kind : BucketDocumentKind) :
    Browser × List BrowserTask :=
  (browser,
    match browser.app.selectedBucket with
    | some bucket => [.deleteBucketDocument browser.app.client kind bucket]
    | none => [])

def handleBucketDocumentDeleted (browser : Browser) (kind : BucketDocumentKind)
    (result : Traced Str (Except String Unit)) : Browser × List BrowserTask :=
  match result.value with
  | .error error =>
      (browser.withBucketDocumentState kind
        ({ · with saving := false, error := some (kind.deleteErrorPrefix ++ ": " ++ error) }), [])
  | .ok () =>
      (browser.withBucketDocumentState kind
        ({ · with saving := false }.setLoaded ⟨.absent, result.asked⟩), [])

/-! ## Inspecting and healing the selected object -/

/-- The tasks that only fill the administration pages are left out. -/
def handleAbixioDetected (browser : Browser) (found : Bool) : Browser × List BrowserTask :=
  ({ browser with isAbixio := found }, [])

/-- The result names its object, and one for another object is dropped. -/
def handleObjectInspectLoaded (browser : Browser) (object : ObjectId)
    (result : Traced ObjectId (Except String ObjectInspectResponse)) :
    Browser × List BrowserTask :=
  if browser.app.currentSelectedObject ≠ some object then (browser, [])
  else
    ({ browser with
       loadingObjectInspect := false, objectInspectTarget := none,
       objectInspect := some result }, [])

def handleRefreshObjectInspect (browser : Browser) : Browser × List BrowserTask :=
  match browser.app.currentSelectedObject with
  | none => (browser, [])
  | some object =>
      if !browser.isAbixio || !browser.hasAdmin then (browser, [])
      else
        ({ browser with loadingObjectInspect := true, objectInspectTarget := some object },
          [.fetchObjectInspect object])

def handleOpenHealConfirm (browser : Browser) : Browser × List BrowserTask :=
  match browser.app.currentSelectedObject with
  | none => (browser, [])
  | some object =>
      if !browser.isAbixio || !browser.hasAdmin || browser.healingObject then (browser, [])
      else ({ browser with healConfirmTarget := some object }, [])

def handleCancelHealConfirm (browser : Browser) : Browser × List BrowserTask :=
  ({ browser with healConfirmTarget := none }, [])

def handleConfirmHealObject (browser : Browser) : Browser × List BrowserTask :=
  match browser.healConfirmTarget with
  | none => (browser, [])
  | some object =>
      ({ browser with
         healConfirmTarget := none
         healingObject := true
         healingTarget := some object
         healResult := some "Healing object..." }, [.healObject object])

def handleHealObjectFinished (browser : Browser) (object : ObjectId)
    (result : Except String HealResponse) : Browser × List BrowserTask :=
  let browser :=
    if browser.healingTarget = some object then
      { browser with healingObject := false, healingTarget := none }
    else browser
  if browser.app.currentSelectedObject ≠ some object then (browser, [])
  else
    match result with
    | .ok heal =>
        let suffix := match heal.shardsFixed with
          | some count => " (" ++ toString count ++ " shards fixed)"
          | none => ""
        ({ browser with
           healResult := some (heal.result ++ suffix)
           loadingObjectInspect := true
           objectInspectTarget := some object }, [.fetchObjectInspect object])
    | .error error =>
        ({ browser with healResult := some ("Heal failed: " ++ error) }.withError
          ("Heal failed: " ++ error), [])

/-! ## Connecting, and deleting a bucket -/

/-- The browser right after the application got a new client. -/
def connected (browser : Browser) : Browser :=
  { { browser with
      objects := none, detail := none, objectFilter := [],
      findResults := none }.resetBucketDocumentStates with
    bucketTags := none, isAbixio := false, hasAdmin := true }.clearObjectAdminState

def handleConnectTo (surroundings : Surroundings) (browser : Browser) (name : Str) :
    Browser × List BrowserTask :=
  let result := browser.withApp (AbixioUi.handleConnectTo surroundings browser.app name)
  match browser.app.connections.find? (·.name = name) with
  | none => result
  | some connection =>
      match surroundings.resolveKeys connection.name with
      | .error _ => result
      | .ok credentials =>
          match S3Client.new connection.endpoint credentials connection.region with
          | .error _ => result
          | .ok _ => (result.1.connected, result.2 ++ [.probe])

def handleServerAutoConnect (browser : Browser) (endpoint : Str) (noAuth : Bool) :
    Browser × List BrowserTask :=
  let result := browser.withApp (AbixioUi.handleServerAutoConnect browser.app endpoint noAuth)
  if browser.app.serverRunning then
    match S3Client.new endpoint none "us-east-1".toList with
    | .error _ => result
    | .ok _ => (result.1.connected, result.2 ++ [.probe])
  else result

/-- The browser after its selected bucket is gone. -/
def bucketGone (browser : Browser) : Browser :=
  { { browser with
      objectFilter := [], findResults := none, objects := none,
      detail := none }.resetBucketDocumentStates with bucketTags := none }.clearObjectAdminState

def handleBucketDeleteStepFinished (browser : Browser)
    (result : Except String BucketDeleteStepResult) : Browser × List BrowserTask :=
  let (after, tasks) :=
    browser.withApp (AbixioUi.handleBucketDeleteStepFinished browser.app result)
  match browser.app.bucketDelete, result with
  | some _, .ok (.bucketDeleted bucket) =>
      (if browser.app.selectedBucket = some bucket then after.bucketGone else after, tasks)
  | _, _ => (after, tasks)

end Browser

end AbixioUi
