import AbixioUi.App.Update
import AbixioUi.Foundation.Runs
import AbixioUi.Sync.RunInvariant

/-! # The world around the application

A world is the application with the tasks that are in flight. The user and the
server process send messages, tasks end in any order with the answers they got, and
the screens that are not modelled change what is browsed. For the properties of
whole runs a world also records the listings that were delivered and how the
current sync run was started.
-/

namespace AbixioUi

open Foundation

/-! ## Messages that tasks end with -/

/-- The results of tasks; every other message comes from the user or the server process. -/
def Message.isResult : Message → Bool
  | .syncSourceLocalPathPicked _ | .syncDestinationLocalPathPicked _
  | .syncSourceBucketsLoaded _ | .syncDestinationBucketsLoaded _
  | .syncSourceEnumerated _ | .syncDestinationEnumerated _ | .syncPlanBuilt _
  | .syncCopyStepFinished _ | .syncDeleteBatchFinished _
  | .serverAutoConnect _ _
  | .transferDestinationBucketsLoaded _ | .transferPrepared _ | .transferStepFinished _
  | .bulkDeleteBatchFinished _ | .prefixDeleteListLoaded _ | .prefixDeleteBatchFinished _
  | .bucketDeletePreviewLoaded _ _ | .bucketDeleteStepFinished _ => true
  | _ => false

/-- What the servers and the file system answer to the requests of one task. -/
structure Replies where
  objects : Except String (List SyncObject)
  buckets : Except String (List Str)
  keys : Except String (List Str)
  items : Except String (List TransferItem)
  step : Except String TransferStepResult
  deleted : Except String Nat
  done : Except String Unit

def SyncRunResult.message : SyncRunResult → Message
  | .copyStepFinished result => .syncCopyStepFinished result
  | .deleteBatchFinished result => .syncDeleteBatchFinished result

/-- The message a task ends with; the results that only browsing shows are left out. -/
def AppTask.message (replies : Replies) : AppTask → Option Message
  | .fetchBuckets _ => none
  | .fetchObjects _ _ _ => none
  | .fetchSyncSourceBuckets client =>
      some (.syncSourceBucketsLoaded (client.bind fun _ => replies.buckets))
  | .fetchSyncDestinationBuckets client =>
      some (.syncDestinationBucketsLoaded (client.bind fun _ => replies.buckets))
  | .pickSyncSourceLocalPath path => some (.syncSourceLocalPathPicked path)
  | .pickSyncDestinationLocalPath path => some (.syncDestinationLocalPathPicked path)
  | .enumerateSyncSource _ _ => some (.syncSourceEnumerated replies.objects)
  | .enumerateSyncDestination _ _ => some (.syncDestinationEnumerated replies.objects)
  | .buildSyncPlan source destination mode policy compareMode =>
      some (.syncPlanBuilt
        (.ok (AbixioUi.buildSyncPlan source destination mode policy compareMode)))
  | .runSync spec clients => some (spec.intoTask (clients.bind fun _ => replies.done)).message
  | .fetchTransferBuckets client =>
      some (.transferDestinationBucketsLoaded (client.bind fun _ => replies.buckets))
  | .prepareTransfer items => some (.transferPrepared (.ok items))
  | .prepareImport _ _ _ => some (.transferPrepared replies.items)
  | .prepareExport _ _ _ _ => some (.transferPrepared replies.items)
  | .runTransfer _ _ _ _ _ => some (.transferStepFinished replies.step)
  | .refuseTransfer error => some (.transferStepFinished (.error error))
  | .deleteBulk _ _ _ => some (.bulkDeleteBatchFinished replies.deleted)
  | .listPrefix _ _ _ => some (.prefixDeleteListLoaded replies.keys)
  | .deletePrefix _ _ _ => some (.prefixDeleteBatchFinished replies.deleted)
  | .previewBucket _ bucket => some (.bucketDeletePreviewLoaded bucket replies.keys)
  | .deleteBucketObject _ _ key =>
      some (.bucketDeleteStepFinished (replies.done.map fun _ => .objectDeleted key))
  | .deleteBucket _ bucket =>
      some (.bucketDeleteStepFinished (replies.done.map fun _ => .bucketDeleted bucket))
  | .autoConnect endpoint noAuth => some (.serverAutoConnect endpoint noAuth)

/-! ## What is recorded -/

/-- The settings a plan depends on. -/
structure PlanConfig where
  source : EndpointParams
  destination : EndpointParams
  mode : SyncMode
  policy : SyncPolicy
  compareMode : SyncCompareMode
deriving DecidableEq

def SyncState.planConfig (sync : SyncState) : PlanConfig where
  source := syncEndpointParams sync true
  destination := syncEndpointParams sync false
  mode := sync.mode
  policy := sync.policy
  compareMode := sync.tuning.compareMode

/-- A task in flight, with the settings of the sync screen right after it was started. -/
structure Request where
  task : AppTask
  config : Option PlanConfig

/-- A listing that was delivered, with the settings it was enumerated with. -/
structure Listing where
  source : Bool
  params : EndpointParams
  objects : List SyncObject

def AppTask.listings (replies : Replies) : AppTask → List Listing
  | .enumerateSyncSource params _ =>
      match replies.objects with
      | .ok objects => [⟨true, params, objects⟩]
      | .error _ => []
  | .enumerateSyncDestination params _ =>
      match replies.objects with
      | .ok objects => [⟨false, params, objects⟩]
      | .error _ => []
  | _ => []

/-- How the current sync run was started: the screen in which the dialog now open was
opened and, for a confirmed run, the screens of its dialog and of its confirmation. -/
structure Approval where
  opened : Option SyncState
  confirmed : Option (SyncState × SyncState)

/-! ## Steps -/

structure World where
  app : App
  inFlight : List Request
  listings : List Listing
  approval : Approval

/-- The world in which the application starts. -/
def World.start (connections : List Connection) (serverConfig : ServerConfig)
    (startup : StartupOptions) : World :=
  let (app, tasks) := App.new connections serverConfig startup
  { app := app
    inFlight := tasks.map fun task => ⟨task, none⟩
    listings := []
    approval := ⟨none, none⟩ }

/-- What the screens that are not modelled may change. -/
structure Browsing where
  selection : Selection
  selectedBucket : Option Str
  currentPrefix : Str
  selectedKeys : List Str
  buckets : Option (Except String (List Str))
  loadingBuckets : Bool
  loadingObjects : Bool
  serverConfig : ServerConfig
  error : Option String

def App.browse (app : App) (browsing : Browsing) : App × List AppTask :=
  let app :=
    { app with
      selection := browsing.selection
      selectedBucket := browsing.selectedBucket
      currentPrefix := browsing.currentPrefix
      selectedKeys := browsing.selectedKeys
      buckets := browsing.buckets
      loadingBuckets := browsing.loadingBuckets
      loadingObjects := browsing.loadingObjects
      serverConfig := browsing.serverConfig
      error := browsing.error }
  (app, app.fetchObjects)

inductive WorldEvent
  | user (surroundings : Surroundings) (message : Message)
  | deliver (surroundings : Surroundings) (index : Nat) (replies : Replies)
  | browse (browsing : Browsing)

/-- The message an event brings to the application. -/
def World.received (world : World) : WorldEvent → Option (Surroundings × Message)
  | .user surroundings message =>
      if message.isResult then none else some (surroundings, message)
  | .deliver surroundings index replies =>
      world.inFlight[index]?.bind fun request =>
        (request.task.message replies).map fun message => (surroundings, message)
  | .browse _ => none

/-- The application after an event, and the tasks the event starts. -/
def World.handle (platform : Platform) (world : World) (event : WorldEvent) :
    App × List AppTask :=
  match event, world.received event with
  | .browse browsing, _ => world.app.browse browsing
  | _, some (surroundings, message) => world.app.update platform surroundings message
  | _, none => (world.app, [])

def World.remaining (world : World) : WorldEvent → List Request
  | .deliver _ index _ => world.inFlight.eraseIdx index
  | _ => world.inFlight

def World.listed (world : World) : WorldEvent → List Listing
  | .deliver _ index replies =>
      match world.inFlight[index]? with
      | some request => world.listings ++ request.task.listings replies
      | none => world.listings
  | _ => world.listings

/-- Whether the message starts a sync run on this screen. -/
def SyncState.starts (sync : SyncState) : Message → Bool
  | .startSyncCopy =>
      decide (sync.mode = .copy) &&
        match sync.runPlan with
        | some runPlan => decide (runPlan.transfers ≠ [])
        | none => false
  | .startSync =>
      decide (sync.mode = .sync) &&
        match sync.startable with
        | .ok runPlan => decide (runPlan.deletes = [])
        | .error _ => false
  | .confirmSyncDeleteRun =>
      match sync.deleteConfirm with
      | some confirm =>
          decide (confirm.typedRequired = true → trim confirm.confirmText = confirm.expected)
      | none => false
  | _ => false

/-- Whether the message opens the confirmation dialog on this screen. -/
def SyncState.opens (sync : SyncState) : Message → Bool
  | .startSync =>
      decide (sync.mode = .sync) &&
        match sync.startable with
        | .ok runPlan => decide (runPlan.deletes ≠ [])
        | .error _ => false
  | _ => false

/-- The record after a message that found the given screen. -/
def Approval.after (approval : Approval) (sync : SyncState) (message : Message) : Approval :=
  { opened := if sync.opens message then some sync else approval.opened
    confirmed :=
      if sync.starts message then
        match message, approval.opened with
        | .confirmSyncDeleteRun, some opened => some (opened, sync)
        | _, _ => none
      else approval.confirmed }

def World.approved (world : World) (event : WorldEvent) : Approval :=
  match world.app.sync, world.received event with
  | some sync, some (_, message) => world.approval.after sync message
  | _, _ => world.approval

def World.step (platform : Platform) (world : World) (event : WorldEvent) : World :=
  let (app, tasks) := world.handle platform event
  { app := app
    inFlight :=
      world.remaining event ++ tasks.map fun task => ⟨task, app.sync.map (·.planConfig)⟩
    listings := world.listed event
    approval := world.approved event }

/-- Some run of the application leads to the world. -/
def World.Reachable (platform : Platform) (world : World) : Prop :=
  ∃ connections serverConfig startup events,
    world = run (World.step platform) (World.start connections serverConfig startup) events

/-! ## Steps, part by part -/

section Steps

variable {platform : Platform} {world : World}

theorem step_app (event : WorldEvent) :
    (world.step platform event).app = (world.handle platform event).1 := rfl

theorem step_listings (event : WorldEvent) :
    (world.step platform event).listings = world.listed event := rfl

theorem handle_of_received (platform : Platform) {event : WorldEvent}
    {surroundings : Surroundings} {message : Message}
    (h : world.received event = some (surroundings, message)) :
    world.handle platform event = world.app.update platform surroundings message := by
  cases event with
  | browse browsing => cases h
  | user _ _ | deliver _ _ _ => simp only [World.handle, h]

theorem handle_of_not_received (platform : Platform) {event : WorldEvent}
    (h : world.received event = none) :
    world.handle platform event = (world.app, []) ∨
      ∃ browsing, event = .browse browsing ∧
        world.handle platform event = world.app.browse browsing := by
  cases event with
  | browse browsing => exact .inr ⟨browsing, rfl, rfl⟩
  | user _ _ | deliver _ _ _ =>
      left
      simp only [World.handle, h]

theorem mem_remaining {event : WorldEvent} {request : Request}
    (h : request ∈ world.remaining event) : request ∈ world.inFlight := by
  cases event with
  | user _ _ | browse _ => exact h
  | deliver _ index _ => exact List.mem_of_mem_eraseIdx h

/-- A request in flight was so before, or was started by this event. -/
theorem mem_inFlight_step {event : WorldEvent} {request : Request}
    (h : request ∈ (world.step platform event).inFlight) :
    request ∈ world.inFlight ∨ ∃ task ∈ (world.handle platform event).2,
      request = ⟨task, (world.handle platform event).1.sync.map (·.planConfig)⟩ := by
  rcases List.mem_append.mp h with hold | hnew
  · exact .inl (mem_remaining hold)
  · obtain ⟨task, htask, rfl⟩ := List.mem_map.mp hnew
    exact .inr ⟨task, htask, rfl⟩

theorem start_sync (connections : List Connection) (serverConfig : ServerConfig)
    (startup : StartupOptions) :
    (World.start connections serverConfig startup).app.sync = none := rfl

/-- The application starts by listing the buckets of its server. -/
theorem mem_inFlight_start {connections : List Connection} {serverConfig : ServerConfig}
    {startup : StartupOptions} {request : Request}
    (h : request ∈ (World.start connections serverConfig startup).inFlight) :
    ∃ client, request.task = .fetchBuckets client := by
  simp only [World.start, App.new, List.mem_map] at h
  obtain ⟨task, htask, rfl⟩ := h
  split at htask
  next =>
    rw [List.mem_singleton] at htask
    exact ⟨_, htask⟩
  next => cases htask

end Steps

/-! ## A quiet world -/

/-- Nothing fails, and no folder is picked. -/
def calm : Surroundings where
  resolveKeys := fun _ => .ok none
  storeKeys := .ok ()
  saveSettings := .ok ()
  pickFolder := none
  spawnServer := .ok ()

/-- Listings and folders are empty, and every request succeeds. -/
def emptyReplies : Replies where
  objects := .ok []
  buckets := .ok []
  keys := .ok []
  items := .ok []
  step := .ok (.copied "")
  deleted := .ok 0
  done := .ok ()

def noServer : ServerConfig where
  volumes := []
  listen := ":10000".toList
  noAuth := false
  autoConnect := true

/-- The application without an endpoint to connect to. -/
def unconnected : World := World.start [] noServer ⟨none, none⟩

end AbixioUi
