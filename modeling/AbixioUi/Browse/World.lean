import AbixioUi.App.World
import AbixioUi.Browse.Handlers

/-! # The world around the browser

The user sends messages, and tasks end in any order with the answers they got. The
server holds the tags: it applies writes and looks reads up in the order in which the
requests are issued, and only the answers are delivered in any order. A world also
records the listings that were delivered.
-/

namespace AbixioUi

open Foundation

/-! ## Messages -/

inductive BrowserMessage
  | app (message : Message)
  | selectBucket (name : Str)
  | navigatePrefix (keyPrefix : Str)
  | selectObject (key : Str)
  | clearSelection
  | bucketsLoaded (result : Except String (List Str))
  | objectsLoaded (result : Traced ListingRequest (Except String ListObjectsResult))
  | refresh
  | refreshAll
  | objectFilterChanged (value : Str)
  | find
  | findComplete (result : Traced ListingRequest (Except String ListObjectsResult))
  | clearFind
  | toggleObjectSelected (key : Str)
  | selectAllObjects
  | clearObjectSelection
  | upload (file : Option Str)
  | uploadDone (result : Except String Unit)
  | delete (object : ObjectId)
  | deleteDone (result : Except String Unit)
  | newBucketNameChanged (value : Str)
  | openCreateBucketModal
  | closeCreateBucketModal
  | createBucket
  | createBucketDone (bucket : Str) (result : Except String Unit)
  | detailLoaded (result : Traced ObjectId (Except String ObjectDetail))
  | previewLoaded (result : Traced ObjectId (Except String Str))
  | versionsLoaded (result : Traced ObjectId (Except String (List VersionInfo)))
  | deleteVersion (versionId : Str)
  | versionDeleted (result : Except String Unit)
  | restoreVersion (versionId : Str)
  | versionRestored (result : Except String Unit)
  | tagsLoaded (result : Traced TagRead (Except String Tags))
  | tagKeyChanged (value : Str)
  | tagValueChanged (value : Str)
  | addTag
  | removeTag (tagKey : Str)
  | tagsSaved (result : Except String Unit)
  | bucketTagsLoaded (result : Traced TagRead (Except String Tags))
  | bucketTagKeyChanged (value : Str)
  | bucketTagValueChanged (value : Str)
  | addBucketTag
  | removeBucketTag (tagKey : Str)
  | bucketTagsSaved (result : Except String Unit)
  | bucketDocumentLoaded (kind : BucketDocumentKind)
      (result : Traced Str (Except String (Option Str)))
  | openBucketDocumentEditor (kind : BucketDocumentKind)
  | cancelBucketDocumentEditor (kind : BucketDocumentKind)
  | bucketDocumentEdited (kind : BucketDocumentKind) (action : Str → Str)
  | saveBucketDocument (kind : BucketDocumentKind)
  | bucketDocumentSaved (kind : BucketDocumentKind) (result : Traced Str (Except String Unit))
  | deleteBucketDocument (kind : BucketDocumentKind)
  | bucketDocumentDeleted (kind : BucketDocumentKind) (result : Traced Str (Except String Unit))
  | abixioDetected (found : Bool)
  | objectInspectLoaded (object : ObjectId)
      (result : Traced ObjectId (Except String ObjectInspectResponse))
  | refreshObjectInspect
  | openHealConfirm
  | cancelHealConfirm
  | confirmHealObject
  | healObjectFinished (object : ObjectId) (result : Except String HealResponse)

/-- The results of tasks; every other message comes from the user. -/
def BrowserMessage.isResult : BrowserMessage → Bool
  | .app message => message.isResult
  | .bucketsLoaded _ | .objectsLoaded _ | .findComplete _ | .uploadDone _ | .deleteDone _
  | .createBucketDone _ _ | .detailLoaded _ | .previewLoaded _ | .versionsLoaded _
  | .versionDeleted _ | .versionRestored _ | .tagsLoaded _ | .tagsSaved _
  | .bucketTagsLoaded _ | .bucketTagsSaved _ | .bucketDocumentLoaded _ _
  | .bucketDocumentSaved _ _ | .bucketDocumentDeleted _ _ | .abixioDetected _
  | .objectInspectLoaded _ _ | .healObjectFinished _ _ => true
  | _ => false

/-- Messages of the application that do more than the application's handler. -/
def Browser.updateApp (platform : Platform) (surroundings : Surroundings) (browser : Browser) :
    Message → Browser × List BrowserTask
  | .connectTo name => browser.handleConnectTo surroundings name
  | .serverAutoConnect endpoint noAuth => browser.handleServerAutoConnect endpoint noAuth
  | .bucketDeleteStepFinished result => browser.handleBucketDeleteStepFinished result
  | message => browser.withApp (browser.app.update platform surroundings message)

def Browser.update (platform : Platform) (formats : DocumentFormats)
    (surroundings : Surroundings) (browser : Browser) :
    BrowserMessage → Browser × List BrowserTask
  | .app message => browser.updateApp platform surroundings message
  | .selectBucket name => browser.handleSelectBucket name
  | .navigatePrefix keyPrefix => browser.handleNavigatePrefix keyPrefix
  | .selectObject key => browser.handleSelectObject key
  | .clearSelection => browser.handleClearSelection
  | .bucketsLoaded result => browser.handleBucketsLoaded result
  | .objectsLoaded result => browser.handleObjectsLoaded result
  | .refresh => browser.handleRefresh
  | .refreshAll => browser.handleRefreshAll
  | .objectFilterChanged value => browser.handleObjectFilterChanged value
  | .find => browser.handleFind
  | .findComplete result => browser.handleFindComplete result
  | .clearFind => browser.handleClearFind
  | .toggleObjectSelected key => browser.handleToggleObjectSelected key
  | .selectAllObjects => browser.handleSelectAllObjects
  | .clearObjectSelection => browser.handleClearObjectSelection
  | .upload file => browser.handleUpload file
  | .uploadDone result => browser.handleUploadDone result
  | .delete object => browser.handleDelete object
  | .deleteDone result => browser.handleDeleteDone result
  | .newBucketNameChanged value => browser.handleNewBucketNameChanged value
  | .openCreateBucketModal => browser.handleOpenCreateBucketModal
  | .closeCreateBucketModal => browser.handleCloseCreateBucketModal
  | .createBucket => browser.handleCreateBucket
  | .createBucketDone bucket result => browser.handleCreateBucketDone bucket result
  | .detailLoaded result => browser.handleDetailLoaded result
  | .previewLoaded result => browser.handlePreviewLoaded result
  | .versionsLoaded result => browser.handleVersionsLoaded result
  | .deleteVersion versionId => browser.handleDeleteVersion versionId
  | .versionDeleted result => browser.handleVersionDeleted result
  | .restoreVersion versionId => browser.handleRestoreVersion versionId
  | .versionRestored result => browser.handleVersionRestored result
  | .tagsLoaded result => browser.handleTagsLoaded result
  | .tagKeyChanged value => browser.handleTagKeyChanged value
  | .tagValueChanged value => browser.handleTagValueChanged value
  | .addTag => browser.handleAddTag
  | .removeTag tagKey => browser.handleRemoveTag tagKey
  | .tagsSaved result => browser.handleTagsSaved result
  | .bucketTagsLoaded result => browser.handleBucketTagsLoaded result
  | .bucketTagKeyChanged value => browser.handleBucketTagKeyChanged value
  | .bucketTagValueChanged value => browser.handleBucketTagValueChanged value
  | .addBucketTag => browser.handleAddBucketTag
  | .removeBucketTag tagKey => browser.handleRemoveBucketTag tagKey
  | .bucketTagsSaved result => browser.handleBucketTagsSaved result
  | .bucketDocumentLoaded kind result => browser.handleBucketDocumentLoaded kind result
  | .openBucketDocumentEditor kind => browser.handleOpenBucketDocumentEditor kind
  | .cancelBucketDocumentEditor kind => browser.handleCancelBucketDocumentEditor kind
  | .bucketDocumentEdited kind action => browser.handleBucketDocumentEdited kind action
  | .saveBucketDocument kind => browser.handleSaveBucketDocument formats kind
  | .bucketDocumentSaved kind result => browser.handleBucketDocumentSaved kind result.value
  | .deleteBucketDocument kind => browser.handleDeleteBucketDocument kind
  | .bucketDocumentDeleted kind result => browser.handleBucketDocumentDeleted kind result
  | .abixioDetected found => browser.handleAbixioDetected found
  | .objectInspectLoaded object result => browser.handleObjectInspectLoaded object result
  | .refreshObjectInspect => browser.handleRefreshObjectInspect
  | .openHealConfirm => browser.handleOpenHealConfirm
  | .cancelHealConfirm => browser.handleCancelHealConfirm
  | .confirmHealObject => browser.handleConfirmHealObject
  | .healObjectFinished object result => browser.handleHealObjectFinished object result

/-! ## The tags on the servers -/

/-- The tags of one target, and how often they were written. -/
structure TagCell where
  tags : Tags
  writes : Nat

/-- The tags on every server, by its endpoint. -/
def TagStore := Str → TagTarget → TagCell

/-- A write replaces the tags of one target by others. -/
structure TagWrite where
  endpoint : Str
  target : TagTarget
  tags : Tags

def BrowserTask.tagWrite : BrowserTask → Option TagWrite
  | .putTags client object tags => some ⟨client.endpoint, .object object, tags⟩
  | .deleteTags client object => some ⟨client.endpoint, .object object, ∅⟩
  | .putBucketTags client bucket tags => some ⟨client.endpoint, .bucket bucket, tags⟩
  | .deleteBucketTags client bucket => some ⟨client.endpoint, .bucket bucket, ∅⟩
  | _ => none

def TagStore.write (store : TagStore) (write : TagWrite) : TagStore := fun endpoint target =>
  if endpoint = write.endpoint ∧ target = write.target then
    ⟨write.tags, (store endpoint target).writes + 1⟩
  else store endpoint target

def TagStore.serve (store : TagStore) (task : BrowserTask) : TagStore :=
  match task.tagWrite with
  | some write => store.write write
  | none => store

/-- The tags a task reads. -/
def TagStore.look (store : TagStore) : BrowserTask → TagCell
  | .fetchTags client object => store client.endpoint (.object object)
  | .fetchBucketTags client bucket => store client.endpoint (.bucket bucket)
  | _ => ⟨∅, 0⟩

/-! ## Tasks in flight -/

/-- A task in flight, with the tags it read when it was issued. -/
structure BrowserRequest where
  task : BrowserTask
  cell : TagCell

/-- What the servers answer to the requests of one task. -/
structure BrowserReplies extends Replies where
  listing : Except String ListObjectsResult
  detail : Except String ObjectDetail
  inspect : Except String ObjectInspectResponse
  heal : Except String HealResponse
  versions : Except String (List VersionInfo)
  preview : Except String Str
  document : Except String (Option Str)
  probed : Bool

/-- The objects that match the pattern; `none` where the matcher panics. -/
def ListObjectsResult.found (result : ListObjectsResult) (pattern : Str) :
    Option ListObjectsResult :=
  if result.objects.all fun key => (wildcardMatch pattern key).isSome then
    some
      { objects := result.objects.filter fun key => wildcardMatch pattern key == some true
        commonPrefixes := []
        isTruncated := result.isTruncated }
  else none

/-- The message a task ends with. -/
def BrowserRequest.message (replies : BrowserReplies) (request : BrowserRequest) :
    Option BrowserMessage :=
  match request.task with
  | .app (.fetchBuckets _) => some (.bucketsLoaded replies.buckets)
  | .app (.fetchObjects _ bucket keyPrefix) =>
      some (.objectsLoaded ⟨replies.listing, ⟨bucket, keyPrefix⟩⟩)
  | .app task => (task.message replies.toReplies).map .app
  | .probe => some (.abixioDetected replies.probed)
  | .find _ place pattern =>
      match replies.listing with
      | .error error => some (.findComplete ⟨.error error, place⟩)
      | .ok result => (result.found pattern).map fun found => .findComplete ⟨.ok found, place⟩
  | .fetchDetail _ object => some (.detailLoaded ⟨replies.detail, object⟩)
  | .fetchObjectInspect object => some (.objectInspectLoaded object ⟨replies.inspect, object⟩)
  | .healObject object => some (.healObjectFinished object replies.heal)
  | .fetchTags client object =>
      some (.tagsLoaded
        ⟨replies.done.map fun _ => request.cell.tags,
          ⟨client.endpoint, .object object, request.cell.writes⟩⟩)
  | .putTags _ _ _ | .deleteTags _ _ => some (.tagsSaved replies.done)
  | .fetchVersions _ object => some (.versionsLoaded ⟨replies.versions, object⟩)
  | .deleteVersion _ _ _ => some (.versionDeleted replies.done)
  | .restoreVersion _ _ _ => some (.versionRestored replies.done)
  | .fetchPreview _ object => some (.previewLoaded ⟨replies.preview, object⟩)
  | .uploadFile _ _ => some (.uploadDone replies.done)
  | .deleteObject _ _ => some (.deleteDone replies.done)
  | .createBucket _ name => some (.createBucketDone name replies.done)
  | .fetchBucketDocument _ kind bucket =>
      some (.bucketDocumentLoaded kind ⟨replies.document, bucket⟩)
  | .putBucketDocument _ kind bucket _ =>
      some (.bucketDocumentSaved kind ⟨replies.done, bucket⟩)
  | .deleteBucketDocument _ kind bucket =>
      some (.bucketDocumentDeleted kind ⟨replies.done, bucket⟩)
  | .fetchBucketTags client bucket =>
      some (.bucketTagsLoaded
        ⟨replies.done.map fun _ => request.cell.tags,
          ⟨client.endpoint, .bucket bucket, request.cell.writes⟩⟩)
  | .putBucketTags _ _ _ | .deleteBucketTags _ _ => some (.bucketTagsSaved replies.done)

/-! ## Steps -/

/-- A listing that was delivered: the request it answers and the keys it named. -/
structure DeliveredListing where
  request : ListingRequest
  keys : List Str
deriving DecidableEq, Repr

def BrowserRequest.listings (replies : BrowserReplies) (request : BrowserRequest) :
    List DeliveredListing :=
  match request.task, replies.listing, replies.keys with
  | .app (.fetchObjects _ bucket keyPrefix), .ok result, _ =>
      [⟨⟨bucket, keyPrefix⟩, result.objects⟩]
  | .find _ place _, .ok result, _ => [⟨place, result.objects⟩]
  | .app (.listPrefix _ bucket keyPrefix), _, .ok keys => [⟨⟨bucket, keyPrefix⟩, keys⟩]
  | .app (.previewBucket _ bucket), _, .ok keys => [⟨⟨bucket, []⟩, keys⟩]
  | _, _, _ => []

structure BrowserWorld where
  browser : Browser
  inFlight : List BrowserRequest
  server : TagStore
  listed : List DeliveredListing

inductive BrowserEvent
  | user (surroundings : Surroundings) (message : BrowserMessage)
  | deliver (surroundings : Surroundings) (index : Nat) (replies : BrowserReplies)

namespace BrowserWorld

/-- The message an event brings to the browser. -/
def received (world : BrowserWorld) : BrowserEvent → Option (Surroundings × BrowserMessage)
  | .user surroundings message =>
      if message.isResult then none else some (surroundings, message)
  | .deliver surroundings index replies =>
      world.inFlight[index]?.bind fun request =>
        (request.message replies).map fun message => (surroundings, message)

/-- The browser after an event, and the tasks the event starts. -/
def handle (platform : Platform) (formats : DocumentFormats) (world : BrowserWorld)
    (event : BrowserEvent) : Browser × List BrowserTask :=
  match world.received event with
  | some (surroundings, message) =>
      world.browser.update platform formats surroundings message
  | none => (world.browser, [])

def remaining (world : BrowserWorld) : BrowserEvent → List BrowserRequest
  | .user _ _ => world.inFlight
  | .deliver _ index _ => world.inFlight.eraseIdx index

def listedAfter (world : BrowserWorld) : BrowserEvent → List DeliveredListing
  | .user _ _ => world.listed
  | .deliver _ index replies =>
      match world.inFlight[index]? with
      | some request => world.listed ++ request.listings replies
      | none => world.listed

/-- A world whose new tasks reach the server in the order in which they are started. -/
def issue (world : BrowserWorld) (task : BrowserTask) : BrowserWorld :=
  { world with
    inFlight := world.inFlight ++ [⟨task, world.server.look task⟩]
    server := world.server.serve task }

def step (platform : Platform) (formats : DocumentFormats) (world : BrowserWorld)
    (event : BrowserEvent) : BrowserWorld :=
  let (browser, tasks) := world.handle platform formats event
  tasks.foldl issue
    { browser := browser
      inFlight := world.remaining event
      server := world.server
      listed := world.listedAfter event }

/-- The world in which the browser starts; the servers hold any tags. -/
def start (connections : List Connection) (serverConfig : ServerConfig)
    (startup : StartupOptions) (server : TagStore) : BrowserWorld :=
  let (browser, tasks) := Browser.new connections serverConfig startup
  tasks.foldl issue { browser := browser, inFlight := [], server := server, listed := [] }

end BrowserWorld

/-! ## Steps, part by part -/

section Issue

variable (world : BrowserWorld) (tasks : List BrowserTask)

@[simp] theorem issueAll_browser : (tasks.foldl .issue world).browser = world.browser := by
  induction tasks generalizing world with
  | nil => rfl
  | cons task tasks ih => exact ih (world.issue task)

@[simp] theorem issueAll_listed : (tasks.foldl .issue world).listed = world.listed := by
  induction tasks generalizing world with
  | nil => rfl
  | cons task tasks ih => exact ih (world.issue task)

end Issue

section Steps

variable (platform : Platform) (formats : DocumentFormats) {world : BrowserWorld}

theorem step_browser (event : BrowserEvent) :
    (world.step platform formats event).browser = (world.handle platform formats event).1 := by
  simp [BrowserWorld.step]

theorem step_listed (event : BrowserEvent) :
    (world.step platform formats event).listed = world.listedAfter event := by
  simp [BrowserWorld.step]

theorem mem_browserRemaining {event : BrowserEvent} {request : BrowserRequest}
    (h : request ∈ world.remaining event) : request ∈ world.inFlight := by
  cases event with
  | user _ _ => exact h
  | deliver _ index _ => exact List.mem_of_mem_eraseIdx h

/-- A result that arrives ends a task that was in flight. -/
theorem received_result {event : BrowserEvent} {surroundings : Surroundings}
    {message : BrowserMessage} (h : world.received event = some (surroundings, message))
    (hresult : message.isResult = true) :
    ∃ index replies request, event = .deliver surroundings index replies ∧
      world.inFlight[index]? = some request ∧ request.message replies = some message := by
  cases event with
  | user _ sent =>
      simp only [BrowserWorld.received] at h
      split at h
      next => cases h
      next hsent =>
        obtain ⟨-, rfl⟩ := Prod.mk.inj (Option.some.inj h)
        exact absurd hresult hsent
  | deliver _ index replies =>
      obtain ⟨request, hrequest, hmessage⟩ := Option.bind_eq_some_iff.mp h
      obtain ⟨sent, hsent, heq⟩ := Option.map_eq_some_iff.mp hmessage
      obtain ⟨rfl, rfl⟩ := Prod.mk.inj heq
      exact ⟨index, replies, request, rfl, hrequest, hsent⟩

end Steps

end AbixioUi
