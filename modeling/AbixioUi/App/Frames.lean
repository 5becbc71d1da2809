import AbixioUi.App.World

/-! # What a message leaves alone

Most messages touch one part of the application. The lemmas here say, handler by
handler, that the sync screen and the connections stay as they are and that the
started tasks talk to the servers the application names.
-/

namespace AbixioUi

open Foundation

/-! ## Requests -/

/-- The connection id and the server of the requests to one side. -/
def TransferEndpoint.requests : TransferEndpoint → Option S3Client → List (Str × Str)
  | .s3 connectionId _ _, some client => [(connectionId, client.endpoint)]
  | _, _ => []

def currentRequest (client : S3Client) : List (Str × Str) :=
  [(CURRENT_CONNECTION_ID, client.endpoint)]

/-- The object listings and the steps of a task: under which connection id, to which
server. The client of the application answers for the current connection. -/
def AppTask.requests : AppTask → List (Str × Str)
  | .fetchObjects client _ _ => currentRequest client
  | .enumerateSyncSource params (some client) => [(params.connectionId, client.endpoint)]
  | .enumerateSyncDestination params (some client) => [(params.connectionId, client.endpoint)]
  | .runSync (.transfer item) (.ok (sourceClient, destinationClient)) =>
      item.source.requests sourceClient ++ item.destination.requests destinationClient
  | .runSync (.deleteRemote connectionId _ _ _ _) (.ok (_, some client)) =>
      [(connectionId, client.endpoint)]
  | .prepareExport client _ _ _ => currentRequest client
  | .runTransfer sourceClient destinationClient item _ _ =>
      currentRequest sourceClient ++ item.destination.requests destinationClient
  | .deleteBulk client _ _ => currentRequest client
  | .listPrefix client _ _ => currentRequest client
  | .deletePrefix client _ _ => currentRequest client
  | .previewBucket client _ => currentRequest client
  | .deleteBucketObject client _ _ => currentRequest client
  | .deleteBucket client _ => currentRequest client
  | _ => []

/-- The tasks of planning and of sync runs. -/
def AppTask.syncs : AppTask → Bool
  | .enumerateSyncSource _ _ | .enumerateSyncDestination _ _ | .buildSyncPlan _ _ _ _ _
  | .runSync _ _ => true
  | _ => false

/-- Every request of the task goes to the server its connection id stands for. -/
def App.Addresses (surroundings : Surroundings) (app : App) (task : AppTask) : Prop :=
  ∀ request ∈ task.requests, ∃ client,
    app.makeClientForConnection surroundings request.1 = .ok client ∧
      client.endpoint = request.2

theorem makeClientForConnection_current (surroundings : Surroundings) (app : App) :
    app.makeClientForConnection surroundings CURRENT_CONNECTION_ID = .ok app.client := by
  simp [App.makeClientForConnection]

theorem makeClientForConnection_congr {surroundings : Surroundings} {app app' : App}
    (hclient : app'.client = app.client) (hconnections : app'.connections = app.connections)
    (connectionId : Str) :
    app'.makeClientForConnection surroundings connectionId =
      app.makeClientForConnection surroundings connectionId := by
  simp [App.makeClientForConnection, hclient, hconnections]

section Requests

variable {surroundings : Surroundings} {app : App}

theorem addresses_of_nil {task : AppTask} (h : task.requests = []) :
    app.Addresses surroundings task := by
  simp [App.Addresses, h]

theorem currentRequest_addressed (surroundings : Surroundings) (app : App) :
    ∀ request ∈ currentRequest app.client, ∃ client,
      app.makeClientForConnection surroundings request.1 = .ok client ∧
        client.endpoint = request.2 := by
  intro request hrequest
  rw [currentRequest, List.mem_singleton] at hrequest
  subst hrequest
  exact ⟨app.client, makeClientForConnection_current surroundings app, rfl⟩

theorem addresses_current {task : AppTask} (h : task.requests = currentRequest app.client) :
    app.Addresses surroundings task := by
  intro request hrequest
  rw [h] at hrequest
  exact currentRequest_addressed surroundings app request hrequest

theorem endpointClient_requests {endpoint : TransferEndpoint} {client : Option S3Client}
    (h : app.endpointClient surroundings endpoint = .ok client) :
    ∀ request ∈ endpoint.requests client, ∃ client,
      app.makeClientForConnection surroundings request.1 = .ok client ∧
        client.endpoint = request.2 := by
  cases endpoint with
  | s3 connectionId bucket key =>
      unfold App.endpointClient at h
      cases hmake : app.makeClientForConnection surroundings connectionId with
      | error e => simp [hmake, Except.map] at h
      | ok made =>
          obtain rfl : some made = client := by simpa [hmake, Except.map] using h
          simp [TransferEndpoint.requests, hmake]
  | «local» path => simp [TransferEndpoint.requests]

end Requests

/-! ## Frames -/

/-- The sync screen is untouched and no sync task is started. -/
structure LeavesSync (app : App) (result : App × List AppTask) : Prop where
  sync_eq : result.1.sync = app.sync
  tasks : ∀ task ∈ result.2, task.syncs = false

/-- The client and the connections are untouched and the started tasks use them. -/
structure LeavesServers (surroundings : Surroundings) (app : App)
    (result : App × List AppTask) : Prop where
  client_eq : result.1.client = app.client
  connections_eq : result.1.connections = app.connections
  addresses : ∀ task ∈ result.2, app.Addresses surroundings task

/-- The frame of a handler of the transfer and delete modals. -/
structure Beside (surroundings : Surroundings) (app : App) (result : App × List AppTask) :
    Prop extends LeavesSync app result, LeavesServers surroundings app result

section Frames

variable {surroundings : Surroundings} {app app' : App}

theorem LeavesServers.quiet (hclient : app'.client = app.client)
    (hconnections : app'.connections = app.connections) :
    LeavesServers surroundings app (app', []) :=
  ⟨hclient, hconnections, by simp⟩

theorem Beside.quiet (hsync : app'.sync = app.sync) (hclient : app'.client = app.client)
    (hconnections : app'.connections = app.connections) :
    Beside surroundings app (app', []) :=
  ⟨⟨hsync, by simp⟩, .quiet hclient hconnections⟩

theorem Beside.task {task : AppTask} (hsync : app'.sync = app.sync)
    (hclient : app'.client = app.client) (hconnections : app'.connections = app.connections)
    (hsyncs : task.syncs = false) (haddresses : app.Addresses surroundings task) :
    Beside surroundings app (app', [task]) :=
  ⟨⟨hsync, by simpa using hsyncs⟩, ⟨hclient, hconnections, by simpa using haddresses⟩⟩

/-- A frame about an application with the same servers. -/
theorem LeavesServers.of_same {result : App × List AppTask}
    (h : LeavesServers surroundings app' result) (hclient : app'.client = app.client)
    (hconnections : app'.connections = app.connections) :
    LeavesServers surroundings app result where
  client_eq := h.client_eq.trans hclient
  connections_eq := h.connections_eq.trans hconnections
  addresses := by
    intro task htask request hrequest
    rw [← makeClientForConnection_congr hclient hconnections]
    exact h.addresses task htask request hrequest

/-- A frame only speaks of the sync screen and the connections. -/
theorem Beside.of_same {result : App × List AppTask} (h : Beside surroundings app' result)
    (hsync : app'.sync = app.sync) (hclient : app'.client = app.client)
    (hconnections : app'.connections = app.connections) : Beside surroundings app result :=
  ⟨⟨h.sync_eq.trans hsync, h.tasks⟩, h.toLeavesServers.of_same hclient hconnections⟩

theorem fetchObjects_cases (app : App) :
    app.fetchObjects = [] ∨
      ∃ bucket, app.fetchObjects = [.fetchObjects app.client bucket app.currentPrefix] := by
  unfold App.fetchObjects
  cases app.selectedBucket with
  | none => exact .inl rfl
  | some bucket => exact .inr ⟨bucket, rfl⟩

theorem Beside.fetchObjects (surroundings : Surroundings) (app : App) :
    Beside surroundings app (app, app.fetchObjects) := by
  rcases fetchObjects_cases app with h | ⟨bucket, h⟩
  · rw [h]
    exact .quiet rfl rfl rfl
  · rw [h]
    exact .task rfl rfl rfl rfl (addresses_current rfl)

theorem browse_beside (surroundings : Surroundings) (app : App) (browsing : Browsing) :
    Beside surroundings app (app.browse browsing) :=
  (Beside.fetchObjects surroundings _).of_same rfl rfl rfl

theorem Beside.fetchBuckets (surroundings : Surroundings) (app : App) :
    Beside surroundings app (app, app.fetchBuckets) :=
  .task rfl rfl rfl rfl (addresses_of_nil rfl)

end Frames

/-! ## Delete modals -/

section Deletes

variable (surroundings : Surroundings) (app : App)

theorem deletesDone_beside (summary : String) :
    Beside surroundings app (app.deletesDone summary) :=
  (Beside.fetchObjects surroundings _).of_same rfl rfl rfl

theorem processNextBulkDeleteStep_beside :
    Beside surroundings app (processNextBulkDeleteStep app) := by
  unfold processNextBulkDeleteStep
  cases app.bulkDelete with
  | none => exact .quiet rfl rfl rfl
  | some state =>
      by_cases hmore : state.nextIndex < state.keys.length
      · simp only [hmore, if_true]
        exact .task rfl rfl rfl rfl (addresses_current rfl)
      · simp only [hmore, if_false]
        exact (deletesDone_beside surroundings _ _).of_same rfl rfl rfl

theorem handleOpenBulkDeleteModal_beside :
    Beside surroundings app (handleOpenBulkDeleteModal app) := by
  unfold handleOpenBulkDeleteModal
  cases app.selectedBucket with
  | none => exact .quiet rfl rfl rfl
  | some bucket =>
      by_cases hnil : app.selectedKeys = []
      · simp only [hnil, if_true]
        exact .quiet rfl rfl rfl
      · simp only [hnil, if_false]
        exact .quiet rfl rfl rfl

theorem handleBulkDeleteBatchFinished_beside (result : Except String Nat) :
    Beside surroundings app (handleBulkDeleteBatchFinished app result) := by
  unfold handleBulkDeleteBatchFinished
  cases app.bulkDelete with
  | none => exact .quiet rfl rfl rfl
  | some state =>
      cases result with
      | error e => exact .quiet rfl rfl rfl
      | ok count => exact (processNextBulkDeleteStep_beside surroundings _).of_same rfl rfl rfl

theorem processNextPrefixDeleteBatch_beside :
    Beside surroundings app (processNextPrefixDeleteBatch app) := by
  unfold processNextPrefixDeleteBatch
  cases app.prefixDelete with
  | none => exact .quiet rfl rfl rfl
  | some state =>
      by_cases hmore : state.nextIndex < state.keys.length
      · simp only [hmore, if_true]
        exact .task rfl rfl rfl rfl (addresses_current rfl)
      · simp only [hmore, if_false]
        exact (deletesDone_beside surroundings _ _).of_same rfl rfl rfl

theorem handleOpenPrefixDeleteModal_beside (keyPrefix : Str) :
    Beside surroundings app (handleOpenPrefixDeleteModal app keyPrefix) := by
  unfold handleOpenPrefixDeleteModal
  cases app.selectedBucket with
  | none => exact .quiet rfl rfl rfl
  | some bucket => exact .task rfl rfl rfl rfl (addresses_current rfl)

theorem handlePrefixDeleteListLoaded_beside (result : Except String (List Str)) :
    Beside surroundings app (handlePrefixDeleteListLoaded app result) := by
  unfold handlePrefixDeleteListLoaded
  cases app.prefixDelete with
  | none => exact .quiet rfl rfl rfl
  | some state => cases result <;> exact .quiet rfl rfl rfl

theorem handlePrefixDeleteBatchFinished_beside (result : Except String Nat) :
    Beside surroundings app (handlePrefixDeleteBatchFinished app result) := by
  unfold handlePrefixDeleteBatchFinished
  cases app.prefixDelete with
  | none => exact .quiet rfl rfl rfl
  | some state =>
      cases result with
      | error e => exact .quiet rfl rfl rfl
      | ok count =>
          exact (processNextPrefixDeleteBatch_beside surroundings _).of_same rfl rfl rfl

theorem processNextBucketDeleteStep_beside :
    Beside surroundings app (processNextBucketDeleteStep app) := by
  unfold processNextBucketDeleteStep
  cases app.bucketDelete with
  | none => exact .quiet rfl rfl rfl
  | some state =>
      by_cases hblocked : state.previewLoading = true ∨ state.confirmName ≠ state.bucket
      · simp only [hblocked, if_true]
        exact .quiet rfl rfl rfl
      · simp only [hblocked, if_false]
        cases state.objectKeys[state.nextIndex]? with
        | none => exact .task rfl rfl rfl rfl (addresses_current rfl)
        | some key => exact .task rfl rfl rfl rfl (addresses_current rfl)

theorem handleOpenDeleteBucketModal_beside :
    Beside surroundings app (handleOpenDeleteBucketModal app) := by
  unfold handleOpenDeleteBucketModal
  cases app.currentSelectedBucket with
  | none => exact .quiet rfl rfl rfl
  | some bucket => exact .task rfl rfl rfl rfl (addresses_current rfl)

theorem handleCloseDeleteBucketModal_beside :
    Beside surroundings app (handleCloseDeleteBucketModal app) := by
  unfold handleCloseDeleteBucketModal
  cases app.bucketDelete with
  | none => exact .quiet rfl rfl rfl
  | some state =>
      simp only
      split
      next => exact .quiet rfl rfl rfl
      next => exact .quiet rfl rfl rfl

theorem handleBucketDeletePreviewLoaded_beside (bucket : Str)
    (result : Except String (List Str)) :
    Beside surroundings app (handleBucketDeletePreviewLoaded app bucket result) := by
  unfold handleBucketDeletePreviewLoaded
  cases app.bucketDelete with
  | none => exact .quiet rfl rfl rfl
  | some state =>
      simp only
      split
      next => exact .quiet rfl rfl rfl
      next => cases result <;> exact .quiet rfl rfl rfl

theorem handleBucketDeleteStepFinished_beside (result : Except String BucketDeleteStepResult) :
    Beside surroundings app (handleBucketDeleteStepFinished app result) := by
  unfold handleBucketDeleteStepFinished
  cases app.bucketDelete with
  | none => exact .quiet rfl rfl rfl
  | some state =>
      cases result with
      | error e =>
          simp only
          split
          next =>
            have hbuckets := Beside.fetchBuckets surroundings app
            have hobjects := Beside.fetchObjects surroundings app
            refine ⟨⟨rfl, ?_⟩, rfl, rfl, ?_⟩
            · intro task htask
              exact (List.mem_append.mp htask).elim (hbuckets.tasks task) (hobjects.tasks task)
            · intro task htask
              exact (List.mem_append.mp htask).elim (hbuckets.addresses task)
                (hobjects.addresses task)
          next => exact (Beside.fetchBuckets surroundings _).of_same rfl rfl rfl
      | ok step =>
          cases step with
          | objectDeleted label =>
              exact (processNextBucketDeleteStep_beside surroundings _).of_same rfl rfl rfl
          | bucketDeleted bucket =>
              simp only
              split
              next => exact .task rfl rfl rfl rfl (addresses_of_nil rfl)
              next => exact .task rfl rfl rfl rfl (addresses_of_nil rfl)

end Deletes

/-! ## Transfer modal -/

section Transfers

variable (platform : Platform) (surroundings : Surroundings) (app : App)

theorem transferStepTask_spec (item : TransferItem) (overwritePolicy : OverwritePolicy)
    (isMove : Bool) :
    (app.transferStepTask surroundings item overwritePolicy isMove).syncs = false ∧
      app.Addresses surroundings
        (app.transferStepTask surroundings item overwritePolicy isMove) := by
  unfold App.transferStepTask
  cases hclient : app.endpointClient surroundings item.destination with
  | error e => exact ⟨rfl, addresses_of_nil rfl⟩
  | ok destinationClient =>
      refine ⟨rfl, ?_⟩
      intro request hrequest
      rcases List.mem_append.mp hrequest with hsource | hdestination
      · exact currentRequest_addressed surroundings app request hsource
      · exact endpointClient_requests hclient request hdestination

/-- What a message of the transfer modal does: it changes the modal and the error that is
shown, and starts at most one task for it. At the end it lists the objects. -/
inductive TransferOutcome (surroundings : Surroundings) (app : App) :
    App × List AppTask → Prop
  | quiet {transfer : Option TransferState} {error : Option String} :
      TransferOutcome surroundings app ({ app with transfer := transfer, error := error }, [])
  | buckets {transfer : Option TransferState} {error : Option String} (connectionId : Str) :
      TransferOutcome surroundings app
        ({ app with transfer := transfer, error := error },
          app.fetchTransferBuckets surroundings connectionId)
  | prepares {transfer : Option TransferState} {error : Option String}
      (prepared : TransferState) :
      TransferOutcome surroundings app
        ({ app with transfer := transfer, error := error }, [prepared.prepareTask app.client])
  | steps {transfer : Option TransferState} {error : Option String} (item : TransferItem)
      (overwritePolicy : OverwritePolicy) (isMove : Bool) :
      TransferOutcome surroundings app
        ({ app with transfer := transfer, error := error },
          [app.transferStepTask surroundings item overwritePolicy isMove])
  | lists {transfer : Option TransferState} {error : Option String} :
      TransferOutcome surroundings app
        ({ app with transfer := transfer, error := error, loadingObjects := true },
          app.fetchObjects)

variable {surroundings app} in
theorem TransferOutcome.beside {result : App × List AppTask}
    (h : TransferOutcome surroundings app result) : Beside surroundings app result := by
  cases h with
  | quiet => exact .quiet rfl rfl rfl
  | buckets connectionId => exact .task rfl rfl rfl rfl (addresses_of_nil rfl)
  | prepares prepared =>
      unfold TransferState.prepareTask
      cases prepared.mode with
      | copyObject | moveObject | importFolder =>
          exact .task rfl rfl rfl rfl (addresses_of_nil rfl)
      | exportPrefix => exact .task rfl rfl rfl rfl (addresses_current rfl)
  | steps item overwritePolicy isMove =>
      obtain ⟨hsyncs, haddresses⟩ :=
        transferStepTask_spec surroundings app item overwritePolicy isMove
      exact .task rfl rfl rfl hsyncs haddresses
  | lists => exact ⟨⟨rfl, (Beside.fetchObjects surroundings app).tasks⟩,
      ⟨rfl, rfl, (Beside.fetchObjects surroundings app).addresses⟩⟩

theorem TransferOutcome.unchanged : TransferOutcome surroundings app (app, []) :=
  @TransferOutcome.quiet surroundings app app.transfer app.error

variable {surroundings app} in
/-- The modal and the error may have been changed before. -/
theorem TransferOutcome.of_changed {transfer : Option TransferState} {error : Option String}
    {result : App × List AppTask}
    (h : TransferOutcome surroundings { app with transfer := transfer, error := error } result) :
    TransferOutcome surroundings app result := by
  cases h with
  | quiet => exact .quiet
  | buckets connectionId => exact .buckets connectionId
  | prepares prepared => exact .prepares prepared
  | steps item overwritePolicy isMove => exact .steps item overwritePolicy isMove
  | lists => exact .lists

theorem processNextTransferStep_outcome :
    TransferOutcome surroundings app (processNextTransferStep platform surroundings app) := by
  unfold processNextTransferStep
  cases app.transfer with
  | none => exact .unchanged surroundings app
  | some transfer =>
      cases hitem : transfer.items[transfer.nextIndex]? with
      | none =>
          simp only [hitem]
          split
          next => exact .lists
          next => exact .quiet
      | some item =>
          simp only [hitem]
          exact .steps item transfer.overwritePolicy (decide (transfer.mode = .moveObject))

theorem handleOpenCopyObject_outcome :
    TransferOutcome surroundings app (handleOpenCopyObject surroundings app) := by
  unfold handleOpenCopyObject
  cases app.currentSelectedObject with
  | none => exact .unchanged surroundings app
  | some object =>
      by_cases hcurrent : app.currentConnectionId = CURRENT_CONNECTION_ID
      · simp only [hcurrent, decide_true, if_true]
        exact .quiet
      · simp only [hcurrent, decide_false, Bool.false_eq_true, if_false]
        exact .buckets app.currentConnectionId

theorem openMoveModal_outcome : TransferOutcome surroundings app (openMoveModal app) := by
  unfold openMoveModal
  cases app.currentSelectedObject with
  | none => exact .unchanged surroundings app
  | some object => exact .quiet

theorem handleOpenImportFolder_outcome :
    TransferOutcome surroundings app (handleOpenImportFolder surroundings app) := by
  unfold handleOpenImportFolder
  split
  next => exact .quiet
  next => exact .unchanged surroundings app

theorem handleOpenExportPrefix_outcome :
    TransferOutcome surroundings app (handleOpenExportPrefix surroundings app) := by
  unfold handleOpenExportPrefix
  split
  next => exact .quiet
  next => exact .unchanged surroundings app

theorem handleCloseTransferModal_outcome :
    TransferOutcome surroundings app (handleCloseTransferModal app) := by
  unfold handleCloseTransferModal
  cases app.transfer with
  | none => exact .unchanged surroundings app
  | some transfer =>
      simp only
      split
      next => exact .unchanged surroundings app
      next => exact .quiet

theorem handleTransferDestinationConnectionChanged_outcome (connectionId : Str) :
    TransferOutcome surroundings app
      (handleTransferDestinationConnectionChanged surroundings app connectionId) := by
  unfold handleTransferDestinationConnectionChanged
  cases app.transfer with
  | none => exact .unchanged surroundings app
  | some transfer => exact .buckets connectionId

theorem editTransfer_outcome (edit : TransferState → TransferState) :
    TransferOutcome surroundings app (app.editTransfer edit) :=
  .quiet

theorem handleStartTransfer_outcome :
    TransferOutcome surroundings app (handleStartTransfer app) := by
  unfold handleStartTransfer
  split
  next =>
    cases app.transfer with
    | none => exact .unchanged surroundings app
    | some transfer => exact .prepares { transfer with preparing := true, summary := none }
  next => exact .unchanged surroundings app

theorem handleTransferPrepared_outcome (result : Except String (List TransferItem)) :
    TransferOutcome surroundings app
      (handleTransferPrepared platform surroundings app result) := by
  unfold handleTransferPrepared
  cases app.transfer with
  | none => exact .unchanged surroundings app
  | some transfer =>
      cases result with
      | error e => exact .quiet
      | ok items =>
          simp only
          split
          next => exact .quiet
          next => exact (processNextTransferStep_outcome platform surroundings _).of_changed

theorem handleTransferStepFinished_outcome (result : Except String TransferStepResult) :
    TransferOutcome surroundings app
      (handleTransferStepFinished platform surroundings app result) := by
  unfold handleTransferStepFinished
  cases app.transfer with
  | none => exact .unchanged surroundings app
  | some transfer =>
      cases result with
      | error e => exact (processNextTransferStep_outcome platform surroundings _).of_changed
      | ok step =>
          cases step with
          | conflict item => exact .quiet
          | copied label | skipped label =>
              exact (processNextTransferStep_outcome platform surroundings _).of_changed

theorem resolveTransferConflict_outcome (skip remember : Bool) :
    TransferOutcome surroundings app
      (resolveTransferConflict platform surroundings app skip remember) := by
  unfold resolveTransferConflict
  cases app.transfer with
  | none => exact .unchanged surroundings app
  | some transfer =>
      cases hconflict : transfer.pendingConflict with
      | none =>
          simp only [hconflict]
          exact .unchanged surroundings app
      | some item =>
          simp only [hconflict]
          split
          next => exact (processNextTransferStep_outcome platform surroundings _).of_changed
          next => exact .steps item .overwriteAll false

/-- The messages of the transfer modal, those that open it among them. -/
def Message.ofTransfer : Message → Bool
  | .openCopyObject | .openMoveObject | .openRenameObject | .openImportFolder
  | .openExportPrefix | .closeTransferModal | .transferDestinationConnectionChanged _
  | .transferDestinationBucketChanged _ | .transferDestinationKeyChanged _
  | .transferDestinationBucketsLoaded _ | .startTransfer | .transferPrepared _
  | .transferStepFinished _ | .transferConflictOverwrite | .transferConflictSkip
  | .transferConflictOverwriteAll | .transferConflictSkipAll => true
  | _ => false

theorem update_transferOutcome {message : Message} (h : message.ofTransfer = true) :
    TransferOutcome surroundings app (app.update platform surroundings message) := by
  cases message with
  | openCopyObject => exact handleOpenCopyObject_outcome surroundings app
  | openMoveObject | openRenameObject => exact openMoveModal_outcome surroundings app
  | openImportFolder => exact handleOpenImportFolder_outcome surroundings app
  | openExportPrefix => exact handleOpenExportPrefix_outcome surroundings app
  | closeTransferModal => exact handleCloseTransferModal_outcome surroundings app
  | transferDestinationConnectionChanged connectionId =>
      exact handleTransferDestinationConnectionChanged_outcome surroundings app connectionId
  | transferDestinationBucketChanged _ | transferDestinationKeyChanged _
  | transferDestinationBucketsLoaded _ => exact editTransfer_outcome surroundings app _
  | startTransfer => exact handleStartTransfer_outcome surroundings app
  | transferPrepared result =>
      exact handleTransferPrepared_outcome platform surroundings app result
  | transferStepFinished result =>
      exact handleTransferStepFinished_outcome platform surroundings app result
  | transferConflictOverwrite | transferConflictSkip | transferConflictOverwriteAll
  | transferConflictSkipAll => exact resolveTransferConflict_outcome platform surroundings app _ _
  | _ => cases h

end Transfers

/-- The messages of the transfer and delete modals. -/
def Message.ofModal : Message → Bool
  | .openCopyObject | .openMoveObject | .openRenameObject | .openImportFolder
  | .openExportPrefix | .closeTransferModal | .transferDestinationConnectionChanged _
  | .transferDestinationBucketChanged _ | .transferDestinationKeyChanged _
  | .transferDestinationBucketsLoaded _ | .startTransfer | .transferPrepared _
  | .transferStepFinished _ | .transferConflictOverwrite | .transferConflictSkip
  | .transferConflictOverwriteAll | .transferConflictSkipAll
  | .openBulkDeleteModal | .closeBulkDeleteModal | .confirmBulkDelete
  | .bulkDeleteBatchFinished _ | .openPrefixDeleteModal _ | .closePrefixDeleteModal
  | .prefixDeleteListLoaded _ | .confirmPrefixDelete | .prefixDeleteBatchFinished _
  | .openDeleteBucketModal | .closeDeleteBucketModal | .bucketDeletePreviewLoaded _ _
  | .bucketDeleteConfirmNameChanged _ | .confirmDeleteBucket | .bucketDeleteStepFinished _ => true
  | _ => false

/-- The modals keep to themselves. -/
theorem update_beside (platform : Platform) (surroundings : Surroundings) (app : App)
    {message : Message} (h : message.ofModal = true) :
    Beside surroundings app (app.update platform surroundings message) := by
  cases message with
  | openCopyObject | openMoveObject | openRenameObject | openImportFolder | openExportPrefix
  | closeTransferModal | transferDestinationConnectionChanged _
  | transferDestinationBucketChanged _ | transferDestinationKeyChanged _
  | transferDestinationBucketsLoaded _ | startTransfer | transferPrepared _
  | transferStepFinished _ | transferConflictOverwrite | transferConflictSkip
  | transferConflictOverwriteAll | transferConflictSkipAll =>
      exact (update_transferOutcome platform surroundings app rfl).beside
  | openBulkDeleteModal => exact handleOpenBulkDeleteModal_beside surroundings app
  | closeBulkDeleteModal | closePrefixDeleteModal | bucketDeleteConfirmNameChanged _ =>
      exact .quiet rfl rfl rfl
  | confirmBulkDelete => exact processNextBulkDeleteStep_beside surroundings app
  | bulkDeleteBatchFinished result =>
      exact handleBulkDeleteBatchFinished_beside surroundings app result
  | openPrefixDeleteModal keyPrefix =>
      exact handleOpenPrefixDeleteModal_beside surroundings app keyPrefix
  | prefixDeleteListLoaded result =>
      exact handlePrefixDeleteListLoaded_beside surroundings app result
  | confirmPrefixDelete => exact processNextPrefixDeleteBatch_beside surroundings app
  | prefixDeleteBatchFinished result =>
      exact handlePrefixDeleteBatchFinished_beside surroundings app result
  | openDeleteBucketModal => exact handleOpenDeleteBucketModal_beside surroundings app
  | closeDeleteBucketModal => exact handleCloseDeleteBucketModal_beside surroundings app
  | bucketDeletePreviewLoaded bucket result =>
      exact handleBucketDeletePreviewLoaded_beside surroundings app bucket result
  | confirmDeleteBucket => exact processNextBucketDeleteStep_beside surroundings app
  | bucketDeleteStepFinished result =>
      exact handleBucketDeleteStepFinished_beside surroundings app result
  | _ => cases h

/-! ## Connections -/

section Connections

variable (surroundings : Surroundings) (app : App)

theorem LeavesSync.quiet {app app' : App} (h : app'.sync = app.sync) :
    LeavesSync app (app', []) :=
  ⟨h, by simp⟩

theorem handleConnectTo_leavesSync (name : Str) :
    LeavesSync app (handleConnectTo surroundings app name) := by
  unfold handleConnectTo
  cases app.connections.find? (·.name = name) with
  | none => exact .quiet rfl
  | some connection =>
      cases hkeys : surroundings.resolveKeys connection.name with
      | error e =>
          simp only [hkeys]
          exact .quiet rfl
      | ok credentials =>
          simp only [hkeys, S3Client.new]
          exact ⟨rfl, by simp [App.fetchBuckets, AppTask.syncs]⟩

theorem handleAddConnection_leavesSync :
    LeavesSync app (handleAddConnection surroundings app) := by
  unfold handleAddConnection
  cases app.newConnection with
  | error e => exact .quiet rfl
  | ok connection =>
      simp only
      split
      next => exact .quiet rfl
      next => exact .quiet rfl

theorem handleEditConnection_leavesSync (name : Str) :
    LeavesSync app (handleEditConnection app name) := by
  unfold handleEditConnection
  cases app.connections.find? (·.name = name) with
  | none => exact .quiet rfl
  | some connection => exact .quiet rfl

theorem handleStartServer_leavesSync :
    LeavesSync app (handleStartServer surroundings app) := by
  unfold handleStartServer
  split
  next => exact .quiet rfl
  next =>
    split
    next => exact .quiet rfl
    next =>
      cases surroundings.spawnServer with
      | error e => exact .quiet rfl
      | ok _ =>
          refine ⟨rfl, ?_⟩
          simp only
          split
          next => simp [AppTask.syncs]
          next => simp

theorem handleServerAutoConnect_leavesSync (endpoint : Str) (noAuth : Bool) :
    LeavesSync app (handleServerAutoConnect app endpoint noAuth) := by
  unfold handleServerAutoConnect
  split
  next =>
    simp only [S3Client.new]
    exact ⟨rfl, by simp [App.fetchBuckets, AppTask.syncs]⟩
  next => exact .quiet rfl

end Connections

end AbixioUi
