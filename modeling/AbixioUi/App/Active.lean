import AbixioUi.App.Redirect

/-! # What is connected

The client, the endpoint that is shown for it and the name of the active connection
change together, and only with the messages that connect or remove a connection. A shown
endpoint is the client's.
-/

namespace AbixioUi

open Foundation

/-! ## What stays -/

/-- The client, its endpoint as it is shown, and the active connection. -/
def App.link (app : App) : S3Client × Str × Option Str :=
  (app.client, app.endpoint, app.activeConnection)

/-- The messages that change which connection is active. -/
def Message.activates : Message → Bool
  | .connectTo _ | .removeConnection _ | .serverAutoConnect _ _ => true
  | _ => false

section Active

variable (platform : Platform) (surroundings : Surroundings) (app : App)

theorem startEnumeration_link (sync : SyncState) (source : Bool) :
    (app.startEnumeration surroundings sync source).1.link =
      app.link := by
  unfold App.startEnumeration
  cases enumerateTask surroundings app (syncEndpointParams sync source) source with
  | error error => rfl
  | ok task => rfl

variable {surroundings app} in
theorem RunOutcome.link {result : App × List AppTask} (h : RunOutcome surroundings app result) :
    result.1.link = app.link := by
  cases h with
  | unchanged => rfl
  | noted _ _ _ => rfl
  | dispatched _ _ _ _ => rfl

variable {surroundings app} in
theorem TransferOutcome.link {result : App × List AppTask}
    (h : TransferOutcome surroundings app result) :
    result.1.link = app.link := by
  cases h with
  | quiet => rfl
  | buckets _ => rfl
  | prepares _ => rfl
  | steps _ _ _ => rfl
  | lists => rfl

theorem processNextBulkDeleteStep_link :
    (processNextBulkDeleteStep app).1.link = app.link := by
  unfold processNextBulkDeleteStep
  cases app.bulkDelete with
  | none => rfl
  | some state =>
      simp only
      split
      next => rfl
      next => rfl

theorem processNextPrefixDeleteBatch_link :
    (processNextPrefixDeleteBatch app).1.link = app.link := by
  unfold processNextPrefixDeleteBatch
  cases app.prefixDelete with
  | none => rfl
  | some state =>
      simp only
      split
      next => rfl
      next => rfl

theorem processNextBucketDeleteStep_link :
    (processNextBucketDeleteStep app).1.link = app.link := by
  unfold processNextBucketDeleteStep
  cases app.bucketDelete with
  | none => rfl
  | some state =>
      simp only
      split
      next => rfl
      next => rfl

/-- The modals leave what is connected alone. -/
theorem update_modal_link {message : Message} (h : message.ofModal = true) :
    (app.update platform surroundings message).1.link = app.link := by
  cases htransfer : message.ofTransfer with
  | true => exact (update_transferOutcome platform surroundings app htransfer).link
  | false =>
      cases message with
      | openCopyObject | openMoveObject | openRenameObject | openImportFolder | openExportPrefix
      | closeTransferModal | transferDestinationConnectionChanged _
      | transferDestinationBucketChanged _ | transferDestinationKeyChanged _
      | transferDestinationBucketsLoaded _ | startTransfer | transferPrepared _
      | transferStepFinished _ | transferConflictOverwrite | transferConflictSkip
      | transferConflictOverwriteAll | transferConflictSkipAll => cases htransfer
      | openBulkDeleteModal =>
          simp only [App.update, handleOpenBulkDeleteModal]
          split
          next => rfl
          next =>
            split
            next => rfl
            next => rfl
      | closeBulkDeleteModal | closePrefixDeleteModal | bucketDeleteConfirmNameChanged _ => rfl
      | confirmBulkDelete => exact processNextBulkDeleteStep_link app
      | bulkDeleteBatchFinished result =>
          simp only [App.update, handleBulkDeleteBatchFinished]
          cases app.bulkDelete with
          | none => rfl
          | some state =>
              cases result with
              | error e => rfl
              | ok count => exact processNextBulkDeleteStep_link _
      | openPrefixDeleteModal keyPrefix =>
          simp only [App.update, handleOpenPrefixDeleteModal]
          split
          next => rfl
          next => rfl
      | prefixDeleteListLoaded result =>
          simp only [App.update, handlePrefixDeleteListLoaded]
          cases app.prefixDelete with
          | none => rfl
          | some state =>
              cases result with
              | error e => rfl
              | ok keys => rfl
      | confirmPrefixDelete => exact processNextPrefixDeleteBatch_link app
      | prefixDeleteBatchFinished result =>
          simp only [App.update, handlePrefixDeleteBatchFinished]
          cases app.prefixDelete with
          | none => rfl
          | some state =>
              cases result with
              | error e => rfl
              | ok count => exact processNextPrefixDeleteBatch_link _
      | openDeleteBucketModal =>
          simp only [App.update, handleOpenDeleteBucketModal]
          split
          next => rfl
          next => rfl
      | closeDeleteBucketModal =>
          simp only [App.update, handleCloseDeleteBucketModal]
          split
          next => rfl
          next =>
            split
            next => rfl
            next => rfl
      | bucketDeletePreviewLoaded bucket result =>
          simp only [App.update, handleBucketDeletePreviewLoaded]
          cases app.bucketDelete with
          | none => rfl
          | some state =>
              simp only
              split
              next => rfl
              next =>
                cases result with
                | error e => rfl
                | ok keys => rfl
      | confirmDeleteBucket => exact processNextBucketDeleteStep_link app
      | bucketDeleteStepFinished result =>
          simp only [App.update, handleBucketDeleteStepFinished]
          cases app.bucketDelete with
          | none => rfl
          | some state =>
              cases result with
              | error e =>
                  simp only
                  split
                  next => rfl
                  next => rfl
              | ok outcome =>
                  cases outcome with
                  | objectDeleted label => exact processNextBucketDeleteStep_link _
                  | bucketDeleted bucket =>
                      simp only
                      split
                      next => rfl
                      next => rfl
      | _ => cases h

theorem update_link {message : Message} (h : message.activates = false) :
    (app.update platform surroundings message).1.link = app.link := by
  cases hmodal : message.ofModal with
  | true => exact update_modal_link platform surroundings app hmodal
  | false =>
      cases message with
      | connectTo _ | removeConnection _ | serverAutoConnect _ _ => cases h
      | addConnection =>
          simp only [App.update, handleAddConnection]
          split
          next => rfl
          next =>
            split
            next => rfl
            next => rfl
      | editConnection name =>
          simp only [App.update, handleEditConnection]
          split
          next => rfl
          next => rfl
      | startServer =>
          simp only [App.update, handleStartServer]
          split
          next => rfl
          next =>
            split
            next => rfl
            next =>
              split
              next => rfl
              next => rfl
      | startSyncPlan =>
          simp only [App.update, handleStartSyncPlan]
          split
          next => rfl
          next =>
            split
            next => rfl
            next => exact startEnumeration_link surroundings _ _ _
      | syncSourceEnumerated result =>
          simp only [App.update, handleSyncSourceEnumerated]
          cases app.sync with
          | none => rfl
          | some sync =>
              cases result with
              | error error => rfl
              | ok objects => exact startEnumeration_link surroundings _ _ _
      | syncDestinationEnumerated result =>
          simp only [App.update, handleSyncDestinationEnumerated]
          cases app.sync with
          | none => rfl
          | some sync =>
              cases result with
              | error error => rfl
              | ok objects =>
                  simp only
                  split
                  next => rfl
                  next =>
                    split
                    next => rfl
                    next => rfl
      | startSyncCopy | startSync | cancelSyncDeleteConfirm | syncDeleteConfirmTextChanged _
      | confirmSyncDeleteRun | syncCopyStepFinished _ | syncDeleteBatchFinished _ =>
          exact (update_outcome platform surroundings app rfl rfl).link
      | openCopyObject | openMoveObject | openRenameObject | openImportFolder
      | openExportPrefix | closeTransferModal | transferDestinationConnectionChanged _
      | transferDestinationBucketChanged _ | transferDestinationKeyChanged _
      | transferDestinationBucketsLoaded _ | startTransfer | transferPrepared _
      | transferStepFinished _ | transferConflictOverwrite | transferConflictSkip
      | transferConflictOverwriteAll | transferConflictSkipAll | openBulkDeleteModal
      | closeBulkDeleteModal | confirmBulkDelete | bulkDeleteBatchFinished _
      | openPrefixDeleteModal _ | closePrefixDeleteModal | prefixDeleteListLoaded _
      | confirmPrefixDelete | prefixDeleteBatchFinished _ | openDeleteBucketModal
      | closeDeleteBucketModal | bucketDeletePreviewLoaded _ _
      | bucketDeleteConfirmNameChanged _ | confirmDeleteBucket | bucketDeleteStepFinished _ =>
          cases hmodal
      | _ => rfl

theorem update_activeConnection_eq {message : Message} (h : message.activates = false) :
    (app.update platform surroundings message).1.activeConnection = app.activeConnection :=
  congrArg (fun link => link.2.2) (update_link platform surroundings app h)

end Active

/-! ## The endpoint that is shown -/

/-- The endpoint that a message gets shown. -/
def App.shownAfter (surroundings : Surroundings) (app : App) : Message → Option Str
  | .connectTo name =>
      match app.connections.find? (·.name = name) with
      | none => none
      | some connection =>
          match surroundings.resolveKeys connection.name with
          | .error _ => none
          | .ok _ => some connection.endpoint
  | .serverAutoConnect endpoint _ => if app.serverRunning then some endpoint else none
  | _ => none

/-- Where an endpoint is shown, the client is for it. -/
def App.Linked (app : App) : Prop :=
  app.endpoint ≠ [] → app.client.endpoint = trimEndMatches '/' app.endpoint

section Linked

variable (platform : Platform) (surroundings : Surroundings) {app app' : App}

theorem update_endpoint (message : Message) :
    (app.update platform surroundings message).1.endpoint =
      (app.shownAfter surroundings message).getD app.endpoint := by
  cases hactivates : message.activates with
  | false =>
      have hnone : app.shownAfter surroundings message = none := by
        cases message with
        | connectTo _ | serverAutoConnect _ _ => cases hactivates
        | _ => rfl
      rw [hnone]
      exact congrArg (fun link => link.2.1) (update_link platform surroundings app hactivates)
  | true =>
      cases message with
      | connectTo name =>
          simp only [App.update, handleConnectTo, App.shownAfter]
          cases app.connections.find? (·.name = name) with
          | none => rfl
          | some connection =>
              cases hkeys : surroundings.resolveKeys connection.name with
              | error e =>
                  simp only [hkeys]
                  rfl
              | ok credentials =>
                  simp only [hkeys]
                  rfl
      | removeConnection name => rfl
      | serverAutoConnect endpoint noAuth =>
          simp only [App.update, handleServerAutoConnect, App.shownAfter]
          split
          next => rfl
          next => rfl
      | _ => cases hactivates

theorem App.Linked.of_link (h : app.Linked) (hlink : app'.link = app.link) : app'.Linked := by
  obtain ⟨hclient, hrest⟩ := Prod.mk.inj hlink
  obtain ⟨hendpoint, -⟩ := Prod.mk.inj hrest
  unfold App.Linked
  rw [hclient, hendpoint]
  exact h

theorem new_linked (connections : List Connection) (serverConfig : ServerConfig)
    (startup : StartupOptions) : (App.new connections serverConfig startup).1.Linked := by
  intro hshown
  cases hendpoint : startup.endpoint with
  | none =>
      have hempty : (App.new connections serverConfig startup).1.endpoint = [] := by
        simp only [App.new, StartupOptions.connect, hendpoint]
      exact absurd hempty hshown
  | some endpoint =>
      simp only [App.new, StartupOptions.connect, hendpoint]
      cases startup.creds with
      | none => rfl
      | some creds => rfl

theorem App.Linked.update (h : app.Linked) (message : Message) :
    (app.update platform surroundings message).1.Linked := by
  cases hactivates : message.activates with
  | false => exact h.of_link (update_link platform surroundings app hactivates)
  | true =>
      cases message with
      | connectTo name =>
          simp only [App.update, handleConnectTo]
          cases app.connections.find? (·.name = name) with
          | none => exact h
          | some connection =>
              cases hkeys : surroundings.resolveKeys connection.name with
              | error e =>
                  simp only [hkeys]
                  exact h
              | ok credentials =>
                  simp only [hkeys]
                  exact fun _ => rfl
      | removeConnection name => exact h
      | serverAutoConnect endpoint noAuth =>
          simp only [App.update, handleServerAutoConnect]
          split
          next => exact fun _ => rfl
          next => exact h
      | _ => cases hactivates

end Linked

end AbixioUi
