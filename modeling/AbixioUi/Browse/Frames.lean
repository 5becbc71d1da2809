import AbixioUi.App.Redirect
import AbixioUi.Browse.World

/-! # What the other screens leave alone

The sync screen, the connection form, the server launcher and the transfer modal
change neither what is selected nor what the delete modals work on. The delete modals
keep the selection, except where the selected bucket was deleted.
-/

namespace AbixioUi

open Foundation

/-! ## Frames -/

/-- What is selected and listed. -/
structure BrowsedPlace where
  selection : Selection
  selectedBucket : Option Str
  currentPrefix : Str
deriving DecidableEq, Repr

def App.place (app : App) : BrowsedPlace := ⟨app.selection, app.selectedBucket, app.currentPrefix⟩

/-- What the delete modals work on. -/
structure Marks where
  selectedKeys : List Str
  bulkDelete : Option BulkDeleteState
  prefixDelete : Option PrefixDeleteState
  bucketDelete : Option BucketDeleteState
deriving DecidableEq, Repr

def App.marks (app : App) : Marks :=
  ⟨app.selectedKeys, app.bulkDelete, app.prefixDelete, app.bucketDelete⟩

/-- The requests that delete objects. -/
def AppTask.deletesKeys : AppTask → Bool
  | .deleteBulk _ _ _ | .deletePrefix _ _ _ | .deleteBucketObject _ _ _ => true
  | _ => false

/-- The selection stays, and a listing under way stays so. -/
structure KeepsPlace (app app' : App) : Prop where
  place_eq : app'.place = app.place
  loading : app.loadingObjects = true → app'.loadingObjects = true

/-- The frame of a message that is not about browsing or deleting. -/
structure Elsewhere (app : App) (result : App × List AppTask) : Prop where
  keepsPlace : KeepsPlace app result.1
  marks_eq : result.1.marks = app.marks
  tasks : ∀ task ∈ result.2, task.deletesKeys = false

section Frames

variable {app app' : App}

theorem KeepsPlace.of_eq (hplace : app'.place = app.place)
    (hloading : app'.loadingObjects = app.loadingObjects) : KeepsPlace app app' :=
  ⟨hplace, fun h => hloading.trans h⟩

theorem KeepsPlace.of_same {app'' : App} (h : KeepsPlace app' app'')
    (hplace : app'.place = app.place) (hloading : app'.loadingObjects = app.loadingObjects) :
    KeepsPlace app app'' :=
  ⟨h.place_eq.trans hplace, fun h' => h.loading (hloading.trans h')⟩

theorem Elsewhere.quiet (hplace : app'.place = app.place)
    (hloading : app'.loadingObjects = app.loadingObjects) (hmarks : app'.marks = app.marks) :
    Elsewhere app (app', []) :=
  ⟨.of_eq hplace hloading, hmarks, by simp⟩

theorem Elsewhere.task {task : AppTask} (hplace : app'.place = app.place)
    (hloading : app'.loadingObjects = app.loadingObjects) (hmarks : app'.marks = app.marks)
    (htask : task.deletesKeys = false) : Elsewhere app (app', [task]) :=
  ⟨.of_eq hplace hloading, hmarks, by simpa using htask⟩

theorem fetchObjects_deletesKeys (app : App) :
    ∀ task ∈ app.fetchObjects, task.deletesKeys = false := by
  intro task htask
  rcases fetchObjects_cases app with h | ⟨bucket, h⟩
  · rw [h] at htask
    cases htask
  · rw [h, List.mem_singleton] at htask
    rw [htask]
    rfl

end Frames

/-! ## The sync screen -/

section Sync

variable (surroundings : Surroundings) (app : App)

theorem startEnumeration_elsewhere (sync : SyncState) (source : Bool) :
    Elsewhere app (app.startEnumeration surroundings sync source) := by
  unfold App.startEnumeration
  cases htask : enumerateTask surroundings app (syncEndpointParams sync source) source with
  | error error => exact .quiet rfl rfl rfl
  | ok task =>
      refine .task rfl rfl rfl ?_
      unfold enumerateTask at htask
      cases hkind : (syncEndpointParams sync source).kind with
      | «local» =>
          cases hpath : (syncEndpointParams sync source).localPath with
          | none => simp [hkind, hpath] at htask
          | some path =>
              simp only [hkind, hpath, Except.ok.injEq] at htask
              subst htask
              cases source <;> rfl
      | s3 =>
          cases hclient : app.makeClientForConnection surroundings
              (syncEndpointParams sync source).connectionId with
          | error e => simp [hkind, hclient, bind, Except.bind] at htask
          | ok client =>
              simp only [hkind, hclient, bind, Except.bind, pure, Except.pure,
                Except.ok.injEq] at htask
              subst htask
              cases source <;> rfl

theorem handleStartSyncPlan_elsewhere :
    Elsewhere app (handleStartSyncPlan surroundings app) := by
  unfold handleStartSyncPlan
  cases app.sync with
  | none => exact .quiet rfl rfl rfl
  | some sync =>
      simp only
      split
      next => exact .quiet rfl rfl rfl
      next => exact startEnumeration_elsewhere surroundings app _ true

theorem handleSyncSourceEnumerated_elsewhere (result : Except String (List SyncObject)) :
    Elsewhere app (handleSyncSourceEnumerated surroundings app result) := by
  unfold handleSyncSourceEnumerated
  cases app.sync with
  | none => exact .quiet rfl rfl rfl
  | some sync =>
      cases result with
      | error error => exact .quiet rfl rfl rfl
      | ok objects => exact startEnumeration_elsewhere surroundings app _ false

theorem handleSyncDestinationEnumerated_elsewhere
    (result : Except String (List SyncObject)) :
    Elsewhere app (handleSyncDestinationEnumerated app result) := by
  unfold handleSyncDestinationEnumerated
  cases app.sync with
  | none => exact .quiet rfl rfl rfl
  | some sync =>
      cases result with
      | error error => exact .quiet rfl rfl rfl
      | ok objects =>
          simp only
          split
          next => exact .quiet rfl rfl rfl
          next =>
            split
            next => exact .quiet rfl rfl rfl
            next => exact .task rfl rfl rfl rfl

variable {surroundings app}

theorem RunOutcome.elsewhere {result : App × List AppTask}
    (h : RunOutcome surroundings app result) : Elsewhere app result := by
  cases h with
  | unchanged => exact .quiet rfl rfl rfl
  | noted _ _ _ => exact .quiet rfl rfl rfl
  | dispatched _ _ _ _ =>
      refine ⟨.of_eq rfl rfl, rfl, fun task htask => ?_⟩
      obtain ⟨spec, -, rfl⟩ := List.mem_map.mp htask
      rfl

end Sync

/-! ## The transfer modal and the server launcher -/

section Transfers

variable (surroundings : Surroundings) (app : App)

theorem transferStepTask_deletesKeys (item : TransferItem) (overwritePolicy : OverwritePolicy)
    (isMove : Bool) :
    (app.transferStepTask surroundings item overwritePolicy isMove).deletesKeys = false := by
  unfold App.transferStepTask
  cases app.endpointClient surroundings item.destination with
  | error e => rfl
  | ok destinationClient => rfl

variable {surroundings app} in
theorem TransferOutcome.elsewhere {result : App × List AppTask}
    (h : TransferOutcome surroundings app result) : Elsewhere app result := by
  cases h with
  | quiet => exact .quiet rfl rfl rfl
  | buckets connectionId => exact .task rfl rfl rfl rfl
  | prepares prepared =>
      unfold TransferState.prepareTask
      cases prepared.mode with
      | copyObject | moveObject | importFolder | exportPrefix => exact .task rfl rfl rfl rfl
  | steps item overwritePolicy isMove =>
      exact .task rfl rfl rfl
        (transferStepTask_deletesKeys surroundings app item overwritePolicy isMove)
  | lists => exact ⟨⟨rfl, fun _ => rfl⟩, rfl, fetchObjects_deletesKeys app⟩

theorem handleStartServer_elsewhere : Elsewhere app (handleStartServer surroundings app) := by
  unfold handleStartServer
  split
  next => exact .quiet rfl rfl rfl
  next =>
    split
    next => exact .quiet rfl rfl rfl
    next =>
      cases surroundings.spawnServer with
      | error e => exact .quiet rfl rfl rfl
      | ok _ =>
          simp only
          split
          next => exact .task rfl rfl rfl rfl
          next => exact .quiet rfl rfl rfl

theorem handleAddConnection_elsewhere :
    Elsewhere app (handleAddConnection surroundings app) := by
  unfold handleAddConnection
  cases app.newConnection with
  | error e => exact .quiet rfl rfl rfl
  | ok connection =>
      simp only
      split
      next => exact .quiet rfl rfl rfl
      next => exact .quiet rfl rfl rfl

theorem handleEditConnection_elsewhere (name : Str) :
    Elsewhere app (handleEditConnection app name) := by
  unfold handleEditConnection
  cases app.connections.find? (·.name = name) with
  | none => exact .quiet rfl rfl rfl
  | some connection => exact .quiet rfl rfl rfl

end Transfers

/-! ## Every message of the application -/

/-- The messages that connect to a server. -/
def Message.connects : Message → Bool
  | .connectTo _ | .serverAutoConnect _ _ => true
  | _ => false

/-- The messages of the three delete modals. -/
def Message.ofDelete : Message → Bool
  | .openBulkDeleteModal | .closeBulkDeleteModal | .confirmBulkDelete
  | .bulkDeleteBatchFinished _ | .openPrefixDeleteModal _ | .closePrefixDeleteModal
  | .prefixDeleteListLoaded _ | .confirmPrefixDelete | .prefixDeleteBatchFinished _
  | .openDeleteBucketModal | .closeDeleteBucketModal | .bucketDeletePreviewLoaded _ _
  | .bucketDeleteConfirmNameChanged _ | .confirmDeleteBucket | .bucketDeleteStepFinished _ => true
  | _ => false

theorem update_elsewhere (platform : Platform) (surroundings : Surroundings) (app : App)
    {message : Message} (hconnects : message.connects = false)
    (hdelete : message.ofDelete = false) :
    Elsewhere app (app.update platform surroundings message) := by
  cases message with
  | connectTo _ | serverAutoConnect _ _ => cases hconnects
  | openBulkDeleteModal | closeBulkDeleteModal | confirmBulkDelete | bulkDeleteBatchFinished _
  | openPrefixDeleteModal _ | closePrefixDeleteModal | prefixDeleteListLoaded _
  | confirmPrefixDelete | prefixDeleteBatchFinished _ | openDeleteBucketModal
  | closeDeleteBucketModal | bucketDeletePreviewLoaded _ _ | bucketDeleteConfirmNameChanged _
  | confirmDeleteBucket | bucketDeleteStepFinished _ => cases hdelete
  | syncSourceConnectionChanged _ | syncDestinationConnectionChanged _
  | pickSyncSourceLocalPath | pickSyncDestinationLocalPath => exact .task rfl rfl rfl rfl
  | startSyncPlan => exact handleStartSyncPlan_elsewhere surroundings app
  | syncSourceEnumerated result =>
      exact handleSyncSourceEnumerated_elsewhere surroundings app result
  | syncDestinationEnumerated result =>
      exact handleSyncDestinationEnumerated_elsewhere app result
  | startSyncCopy | startSync | cancelSyncDeleteConfirm | syncDeleteConfirmTextChanged _
  | confirmSyncDeleteRun | syncCopyStepFinished _ | syncDeleteBatchFinished _ =>
      exact (update_outcome platform surroundings app rfl rfl).elsewhere
  | addConnection => exact handleAddConnection_elsewhere surroundings app
  | editConnection name => exact handleEditConnection_elsewhere app name
  | startServer => exact handleStartServer_elsewhere surroundings app
  | openCopyObject | openMoveObject | openRenameObject | openImportFolder | openExportPrefix
  | closeTransferModal | transferDestinationConnectionChanged _ | startTransfer
  | transferPrepared _ | transferStepFinished _ | transferConflictOverwrite
  | transferConflictSkip | transferConflictOverwriteAll | transferConflictSkipAll =>
      exact (update_transferOutcome platform surroundings app rfl).elsewhere
  | _ => exact .quiet rfl rfl rfl

/-! ## The delete modals and the selection -/

section Deletes

variable (app : App)

theorem processNextBulkDeleteStep_keepsPlace :
    KeepsPlace app (processNextBulkDeleteStep app).1 := by
  unfold processNextBulkDeleteStep
  cases app.bulkDelete with
  | none => exact .of_eq rfl rfl
  | some state =>
      by_cases hmore : state.nextIndex < state.keys.length
      · simp only [hmore, if_true]
        exact .of_eq rfl rfl
      · simp only [hmore, if_false]
        exact ⟨rfl, fun _ => rfl⟩

theorem processNextPrefixDeleteBatch_keepsPlace :
    KeepsPlace app (processNextPrefixDeleteBatch app).1 := by
  unfold processNextPrefixDeleteBatch
  cases app.prefixDelete with
  | none => exact .of_eq rfl rfl
  | some state =>
      by_cases hmore : state.nextIndex < state.keys.length
      · simp only [hmore, if_true]
        exact .of_eq rfl rfl
      · simp only [hmore, if_false]
        exact ⟨rfl, fun _ => rfl⟩

theorem processNextBucketDeleteStep_keepsPlace :
    KeepsPlace app (processNextBucketDeleteStep app).1 := by
  unfold processNextBucketDeleteStep
  cases app.bucketDelete with
  | none => exact .of_eq rfl rfl
  | some state =>
      simp only
      split
      next => exact .of_eq rfl rfl
      next => exact .of_eq rfl rfl

theorem handleBulkDeleteBatchFinished_keepsPlace (result : Except String Nat) :
    KeepsPlace app (handleBulkDeleteBatchFinished app result).1 := by
  unfold handleBulkDeleteBatchFinished
  cases app.bulkDelete with
  | none => exact .of_eq rfl rfl
  | some state =>
      cases result with
      | error e => exact .of_eq rfl rfl
      | ok count =>
          exact (processNextBulkDeleteStep_keepsPlace _).of_same rfl rfl

theorem handlePrefixDeleteBatchFinished_keepsPlace (result : Except String Nat) :
    KeepsPlace app (handlePrefixDeleteBatchFinished app result).1 := by
  unfold handlePrefixDeleteBatchFinished
  cases app.prefixDelete with
  | none => exact .of_eq rfl rfl
  | some state =>
      cases result with
      | error e => exact .of_eq rfl rfl
      | ok count =>
          exact (processNextPrefixDeleteBatch_keepsPlace _).of_same rfl rfl

/-- Where no bucket was deleted the selection stays. -/
theorem handleBucketDeleteStepFinished_keepsPlace {result : Except String BucketDeleteStepResult}
    (h : ∀ bucket, result ≠ .ok (.bucketDeleted bucket)) :
    KeepsPlace app (handleBucketDeleteStepFinished app result).1 := by
  unfold handleBucketDeleteStepFinished
  cases app.bucketDelete with
  | none => exact .of_eq rfl rfl
  | some state =>
      match result with
      | .ok (.objectDeleted label) =>
          exact (processNextBucketDeleteStep_keepsPlace _).of_same rfl rfl
      | .ok (.bucketDeleted bucket) => exact absurd rfl (h bucket)
      | .error error =>
          simp only
          split
          next => exact ⟨rfl, fun _ => rfl⟩
          next => exact .of_eq rfl rfl

/-- Every message keeps the selection but connecting and the end of a bucket delete. -/
theorem update_keepsPlace (platform : Platform) (surroundings : Surroundings)
    {message : Message} (hconnects : message.connects = false)
    (hdeleted : ∀ bucket, message ≠ .bucketDeleteStepFinished (.ok (.bucketDeleted bucket))) :
    KeepsPlace app (app.update platform surroundings message).1 := by
  cases hdelete : message.ofDelete with
  | false => exact (update_elsewhere platform surroundings app hconnects hdelete).keepsPlace
  | true =>
      cases message with
      | openBulkDeleteModal =>
          simp only [App.update, handleOpenBulkDeleteModal]
          split
          next => exact .of_eq rfl rfl
          next => split <;> exact .of_eq rfl rfl
      | closeBulkDeleteModal | closePrefixDeleteModal | bucketDeleteConfirmNameChanged _ =>
          exact .of_eq rfl rfl
      | confirmBulkDelete => exact processNextBulkDeleteStep_keepsPlace app
      | bulkDeleteBatchFinished result =>
          exact handleBulkDeleteBatchFinished_keepsPlace app result
      | openPrefixDeleteModal keyPrefix =>
          simp only [App.update, handleOpenPrefixDeleteModal]
          split <;> exact .of_eq rfl rfl
      | prefixDeleteListLoaded result =>
          simp only [App.update, handlePrefixDeleteListLoaded]
          cases app.prefixDelete with
          | none => exact .of_eq rfl rfl
          | some state => cases result <;> exact .of_eq rfl rfl
      | confirmPrefixDelete => exact processNextPrefixDeleteBatch_keepsPlace app
      | prefixDeleteBatchFinished result =>
          exact handlePrefixDeleteBatchFinished_keepsPlace app result
      | openDeleteBucketModal =>
          simp only [App.update, handleOpenDeleteBucketModal]
          split <;> exact .of_eq rfl rfl
      | closeDeleteBucketModal =>
          simp only [App.update, handleCloseDeleteBucketModal]
          split
          next => exact .of_eq rfl rfl
          next => split <;> exact .of_eq rfl rfl
      | bucketDeletePreviewLoaded bucket result =>
          simp only [App.update, handleBucketDeletePreviewLoaded]
          cases app.bucketDelete with
          | none => exact .of_eq rfl rfl
          | some state =>
              simp only
              split
              next => exact .of_eq rfl rfl
              next => cases result <;> exact .of_eq rfl rfl
      | confirmDeleteBucket => exact processNextBucketDeleteStep_keepsPlace app
      | bucketDeleteStepFinished result =>
          exact handleBucketDeleteStepFinished_keepsPlace app fun bucket hbucket =>
            hdeleted bucket (by rw [hbucket])
      | _ => cases hdelete

end Deletes

/-! ## What the browser shows -/

/-- What the panel of the selected object shows. -/
structure Panel where
  detail : Option (Traced ObjectId (Except String ObjectDetail))
  loadingDetail : Bool
  tags : Option (Traced TagRead (Except String Tags))
  versions : Option (Traced ObjectId (Except String (List VersionInfo)))
  preview : Option (Traced ObjectId (Except String Str))
  inspect : Option (Traced ObjectId (Except String ObjectInspectResponse))

def Browser.panel (browser : Browser) : Panel where
  detail := browser.detail
  loadingDetail := browser.loadingDetail
  tags := browser.objectTags
  versions := browser.objectVersions
  preview := browser.objectPreview
  inspect := browser.objectInspect

/-- The bucket a document is written to, and the text. -/
def BrowserTask.documentWrite : BrowserTask → Option (Str × DocumentText)
  | .putBucketDocument _ _ bucket text => some (bucket, text)
  | _ => none

/-- What is selected, listed, marked and shown. -/
structure Screen where
  place : BrowsedPlace
  loadingObjects : Bool
  marks : Marks
  panel : Panel
  objects : Option (Traced ListingRequest (Except String ListObjectsResult))
  findResults : Option (Traced ListingRequest (Except String ListObjectsResult))
  bucketTags : Option (Traced TagRead (Except String Tags))

def Browser.screen (browser : Browser) : Screen where
  place := browser.app.place
  loadingObjects := browser.app.loadingObjects
  marks := browser.app.marks
  panel := browser.panel
  objects := browser.objects
  findResults := browser.findResults
  bucketTags := browser.bucketTags

/-- Neither a request to delete objects nor one to write a document or tags. -/
def BrowserTask.harmless : BrowserTask → Bool
  | .app task => !task.deletesKeys
  | .putBucketDocument _ _ _ _ | .putTags _ _ _ | .deleteTags _ _ | .putBucketTags _ _ _
  | .deleteBucketTags _ _ => false
  | _ => true

/-- A frame of the handlers that leave the screen and the documents as they are. -/
structure KeepsScreen (browser : Browser) (result : Browser × List BrowserTask) : Prop where
  screen_eq : result.1.screen = browser.screen
  documents_eq : result.1.bucketDocumentState = browser.bucketDocumentState
  tasks : ∀ task ∈ result.2, task.harmless = true

section Screen

variable {browser : Browser} {result : Browser × List BrowserTask}

theorem KeepsScreen.quiet {after : Browser} {tasks : List BrowserTask}
    (hscreen : after.screen = browser.screen)
    (hdocuments : after.bucketDocumentState = browser.bucketDocumentState)
    (htasks : tasks.all (·.harmless) = true) : KeepsScreen browser (after, tasks) :=
  ⟨hscreen, hdocuments, List.all_eq_true.mp htasks⟩

theorem keepsPlace_of_screen {after : Browser} (h : after.screen = browser.screen) :
    KeepsPlace browser.app after.app :=
  .of_eq (congrArg Screen.place h) (congrArg Screen.loadingObjects h)

theorem harmless_documentWrite {task : BrowserTask} (h : task.harmless = true) :
    task.documentWrite = none := by
  cases task with
  | putBucketDocument _ _ _ _ => cases h
  | _ => rfl

theorem harmless_tagWrite {task : BrowserTask} (h : task.harmless = true) :
    task.tagWrite = none := by
  cases task with
  | putTags _ _ _ | deleteTags _ _ | putBucketTags _ _ _ | deleteBucketTags _ _ => cases h
  | _ => rfl

/-- The messages that reach the screen, the documents or the tags. -/
def BrowserMessage.onScreen : BrowserMessage → Bool
  | .app _ | .selectBucket _ | .navigatePrefix _ | .selectObject _ | .clearSelection
  | .objectsLoaded _ | .refresh | .find | .findComplete _ | .clearFind
  | .toggleObjectSelected _ | .selectAllObjects | .clearObjectSelection | .uploadDone _
  | .deleteDone _ | .createBucketDone _ _ | .detailLoaded _ | .previewLoaded _
  | .versionsLoaded _ | .tagsLoaded _ | .objectInspectLoaded _ _
  | .bucketDocumentLoaded _ _ | .openBucketDocumentEditor _ | .cancelBucketDocumentEditor _
  | .bucketDocumentEdited _ _ | .saveBucketDocument _ | .bucketDocumentSaved _ _
  | .bucketDocumentDeleted _ _ | .addTag | .removeTag _ | .addBucketTag | .removeBucketTag _
  | .bucketTagsLoaded _ => true
  | _ => false

theorem handleHealObjectFinished_keepsScreen (browser : Browser) (object : ObjectId)
    (result : Except String HealResponse) :
    KeepsScreen browser (browser.handleHealObjectFinished object result) := by
  unfold Browser.handleHealObjectFinished
  by_cases hhealing : browser.healingTarget = some object
  · simp only [hhealing, if_true]
    split
    next => exact .quiet rfl rfl rfl
    next => cases result <;> exact .quiet rfl rfl rfl
  · simp only [hhealing, if_false]
    split
    next => exact .quiet rfl rfl rfl
    next => cases result <;> exact .quiet rfl rfl rfl

theorem update_keepsScreen (platform : Platform) (formats : DocumentFormats)
    (surroundings : Surroundings) (browser : Browser) {message : BrowserMessage}
    (hscreen : message.onScreen = false) :
    KeepsScreen browser (browser.update platform formats surroundings message) := by
  cases message with
  | app _ | selectBucket _ | navigatePrefix _ | selectObject _ | clearSelection
  | objectsLoaded _ | refresh | find | findComplete _ | clearFind
  | toggleObjectSelected _ | selectAllObjects | clearObjectSelection | uploadDone _
  | deleteDone _ | createBucketDone _ _ | detailLoaded _ | previewLoaded _
  | versionsLoaded _ | tagsLoaded _ | objectInspectLoaded _ _
  | bucketDocumentLoaded _ _ | openBucketDocumentEditor _ | cancelBucketDocumentEditor _
  | bucketDocumentEdited _ _ | saveBucketDocument _ | bucketDocumentSaved _ _
  | bucketDocumentDeleted _ _ | addTag | removeTag _ | addBucketTag | removeBucketTag _
  | bucketTagsLoaded _ => cases hscreen
  | upload file =>
      simp only [Browser.update, Browser.handleUpload]
      split <;> exact .quiet rfl rfl rfl
  | createBucket =>
      simp only [Browser.update, Browser.handleCreateBucket]
      split <;> exact .quiet rfl rfl rfl
  | deleteVersion versionId =>
      simp only [Browser.update, Browser.handleDeleteVersion]
      split <;> exact .quiet rfl rfl rfl
  | restoreVersion versionId =>
      simp only [Browser.update, Browser.handleRestoreVersion]
      split <;> exact .quiet rfl rfl rfl
  | versionDeleted result =>
      simp only [Browser.update, Browser.handleVersionDeleted]
      split
      next => split <;> exact .quiet rfl rfl rfl
      next => exact .quiet rfl rfl rfl
  | versionRestored result =>
      simp only [Browser.update, Browser.handleVersionRestored]
      split
      next => split <;> exact .quiet rfl rfl rfl
      next => exact .quiet rfl rfl rfl
  | tagsSaved result =>
      simp only [Browser.update, Browser.handleTagsSaved]
      split
      next => split <;> exact .quiet rfl rfl rfl
      next => exact .quiet rfl rfl rfl
  | bucketTagsSaved result =>
      cases result with
      | error e => exact .quiet rfl rfl rfl
      | ok _ =>
          simp only [Browser.update, Browser.handleBucketTagsSaved]
          split <;> exact .quiet rfl rfl rfl
  | deleteBucketDocument kind =>
      simp only [Browser.update, Browser.handleDeleteBucketDocument]
      split <;> exact .quiet rfl rfl rfl
  | refreshObjectInspect =>
      simp only [Browser.update, Browser.handleRefreshObjectInspect]
      split
      next => exact .quiet rfl rfl rfl
      next => split <;> exact .quiet rfl rfl rfl
  | openHealConfirm =>
      simp only [Browser.update, Browser.handleOpenHealConfirm]
      split
      next => exact .quiet rfl rfl rfl
      next => split <;> exact .quiet rfl rfl rfl
  | confirmHealObject =>
      simp only [Browser.update, Browser.handleConfirmHealObject]
      split <;> exact .quiet rfl rfl rfl
  | healObjectFinished object result =>
      exact handleHealObjectFinished_keepsScreen browser object result
  | _ => exact .quiet rfl rfl rfl

/-! ## Browsing -/

/-- The messages that select, list, search or mark, and the results they bring. -/
def BrowserMessage.browses : BrowserMessage → Bool
  | .selectBucket _ | .navigatePrefix _ | .selectObject _ | .clearSelection | .objectsLoaded _
  | .refresh | .find | .findComplete _ | .clearFind | .toggleObjectSelected _ | .selectAllObjects
  | .clearObjectSelection | .uploadDone _ | .deleteDone _ | .createBucketDone _ _
  | .detailLoaded _ | .previewLoaded _ | .versionsLoaded _ | .tagsLoaded _
  | .objectInspectLoaded _ _ | .bucketTagsLoaded _ => true
  | _ => false

theorem harmless_deletesKeys {task : AppTask} (h : (BrowserTask.app task).harmless = true) :
    task.deletesKeys = false := by
  simpa [BrowserTask.harmless] using h

theorem fetchObjects_harmless (app : App) :
    ∀ task ∈ app.fetchObjects.map BrowserTask.app, task.harmless = true := by
  intro task htask
  obtain ⟨appTask, happ, rfl⟩ := List.mem_map.mp htask
  simp [BrowserTask.harmless, fetchObjects_deletesKeys _ appTask happ]

theorem fetchObjectPanel_harmless (browser : Browser) (object : ObjectId) :
    ∀ task ∈ browser.fetchObjectPanel object, task.harmless = true := by
  refine List.all_eq_true.mp ?_
  unfold Browser.fetchObjectPanel
  cases browser.isAbixio && browser.hasAdmin <;> rfl

/-- A search starts where a bucket is selected and a text is typed. -/
theorem handleFind_cases (browser : Browser) :
    browser.handleFind = (browser, []) ∨
      ∃ request, browser.handleFind =
        ({ browser with finding := true, findResults := none },
          [.find browser.app.client request browser.objectFilter]) := by
  unfold Browser.handleFind
  split
  next => exact .inl rfl
  next bucket _ =>
    split
    next => exact .inl rfl
    next => exact .inr ⟨⟨bucket, browser.app.currentPrefix⟩, rfl⟩

/-- Browsing starts no request that changes anything on the server. -/
theorem update_browses_harmless (platform : Platform) (formats : DocumentFormats)
    (surroundings : Surroundings) (browser : Browser) {message : BrowserMessage}
    (hbrowses : message.browses = true) :
    ∀ task ∈ (browser.update platform formats surroundings message).2, task.harmless = true := by
  have hnone : ∀ task ∈ ([] : List BrowserTask), task.harmless = true := by simp
  cases message with
  | selectBucket name =>
      exact List.forall_mem_append.mpr ⟨fetchObjects_harmless _, List.all_eq_true.mp rfl⟩
  | navigatePrefix _ | refresh => exact fetchObjects_harmless _
  | selectObject key =>
      simp only [Browser.update, Browser.handleSelectObject]
      split
      next => exact fetchObjectPanel_harmless _ _
      next => exact fetchObjectPanel_harmless _ _
  | find =>
      simp only [Browser.update]
      rcases handleFind_cases browser with hfind | ⟨_, hfind⟩
      · rw [hfind]
        exact hnone
      · rw [hfind]
        exact List.all_eq_true.mp rfl
  | uploadDone result | deleteDone result =>
      cases result with
      | error e => exact hnone
      | ok _ => exact fetchObjects_harmless _
  | createBucketDone bucket result =>
      cases result with
      | error e => exact hnone
      | ok _ =>
          exact List.forall_mem_append.mpr ⟨List.all_eq_true.mp rfl, fetchObjects_harmless _⟩
  | objectInspectLoaded object result =>
      simp only [Browser.update, Browser.handleObjectInspectLoaded]
      split
      next => exact hnone
      next => exact hnone
  | objectsLoaded _ | findComplete _ | clearFind | toggleObjectSelected _ | selectAllObjects
  | clearObjectSelection | clearSelection | detailLoaded _ | previewLoaded _ | versionsLoaded _
  | tagsLoaded _ | bucketTagsLoaded _ => exact hnone
  | _ => cases hbrowses

/-! ## Documents and the screen -/

theorem withBucketDocumentState_screen (browser : Browser) (kind : BucketDocumentKind)
    (change : BucketDocumentState → BucketDocumentState) :
    (browser.withBucketDocumentState kind change).screen = browser.screen := by
  cases kind <;> rfl

/-- The messages that only concern the documents. -/
def BrowserMessage.ofDocument : BrowserMessage → Bool
  | .bucketDocumentLoaded _ _ | .openBucketDocumentEditor _ | .cancelBucketDocumentEditor _
  | .bucketDocumentEdited _ _ | .saveBucketDocument _ | .bucketDocumentSaved _ _
  | .bucketDocumentDeleted _ _ => true
  | _ => false

/-- The requests about documents. -/
def BrowserTask.ofDocument : BrowserTask → Bool
  | .fetchBucketDocument _ _ _ | .putBucketDocument _ _ _ _ | .deleteBucketDocument _ _ _ => true
  | _ => false

/-- They leave the screen as it is and start requests about documents. -/
theorem update_document_screen (platform : Platform) (formats : DocumentFormats)
    (surroundings : Surroundings) (browser : Browser) {message : BrowserMessage}
    (hdocument : message.ofDocument = true) :
    (browser.update platform formats surroundings message).1.screen = browser.screen ∧
      ∀ task ∈ (browser.update platform formats surroundings message).2,
        task.ofDocument = true := by
  have hsame : ∀ kind change, (browser.withBucketDocumentState kind change).screen =
      browser.screen := withBucketDocumentState_screen browser
  cases message with
  | bucketDocumentLoaded kind _ | cancelBucketDocumentEditor kind | bucketDocumentEdited kind _ =>
      exact ⟨hsame kind _, fun _ htask => by cases htask⟩
  | openBucketDocumentEditor kind =>
      refine ⟨?_, fun _ htask => by cases htask⟩
      exact (withBucketDocumentState_screen _ .lifecycle _).trans (hsame .policy _)
  | saveBucketDocument kind =>
      simp only [Browser.update, Browser.handleSaveBucketDocument]
      split
      next => exact ⟨rfl, fun _ htask => by cases htask⟩
      next =>
        split
        next => exact ⟨hsame kind _, fun _ htask => by cases htask⟩
        next => split <;> exact ⟨hsame kind _, by simp [BrowserTask.ofDocument]⟩
  | bucketDocumentSaved kind result =>
      simp only [Browser.update, Browser.handleBucketDocumentSaved]
      split
      next =>
        refine ⟨hsame kind _, ?_⟩
        simp only
        split <;> simp [BrowserTask.ofDocument]
      next => exact ⟨hsame kind _, fun _ htask => by cases htask⟩
  | bucketDocumentDeleted kind result =>
      simp only [Browser.update, Browser.handleBucketDocumentDeleted]
      split <;> exact ⟨hsame kind _, fun _ htask => by cases htask⟩
  | _ => cases hdocument

/-! ## Tag edits and the screen -/

/-- The messages that add or remove a tag. -/
def BrowserMessage.editsTags : BrowserMessage → Bool
  | .addTag | .removeTag _ | .addBucketTag | .removeBucketTag _ => true
  | _ => false

/-- They leave the screen and the documents as they are and start writes of tags. -/
theorem update_edit_screen (platform : Platform) (formats : DocumentFormats)
    (surroundings : Surroundings) (browser : Browser) {message : BrowserMessage}
    (hedits : message.editsTags = true) :
    (browser.update platform formats surroundings message).1.screen = browser.screen ∧
      (browser.update platform formats surroundings message).1.bucketDocumentState =
        browser.bucketDocumentState ∧
      ∀ task ∈ (browser.update platform formats surroundings message).2,
        task.tagWrite.isSome = true := by
  have hnone : ∀ task ∈ ([] : List BrowserTask), task.tagWrite.isSome = true := by simp
  cases message with
  | addTag =>
      simp only [Browser.update, Browser.handleAddTag]
      split
      next => exact ⟨rfl, rfl, hnone⟩
      next =>
        split
        next => exact ⟨rfl, rfl, hnone⟩
        next => split <;> exact ⟨rfl, rfl, by simp [BrowserTask.tagWrite]⟩
  | removeTag tagKey =>
      refine ⟨rfl, rfl, ?_⟩
      simp only [Browser.update, Browser.handleRemoveTag]
      split
      next => split <;> simp [BrowserTask.tagWrite]
      next => exact hnone
  | addBucketTag =>
      simp only [Browser.update, Browser.handleAddBucketTag]
      split
      next => exact ⟨rfl, rfl, hnone⟩
      next => split <;> exact ⟨rfl, rfl, by simp [BrowserTask.tagWrite]⟩
  | removeBucketTag tagKey =>
      refine ⟨rfl, rfl, ?_⟩
      simp only [Browser.update, Browser.handleRemoveBucketTag]
      split
      next => split <;> simp [BrowserTask.tagWrite]
      next => exact hnone
  | _ => cases hedits

end Screen

end AbixioUi
