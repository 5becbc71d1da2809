import AbixioUi.App.Redirect
import AbixioUi.App.TransferRun
import AbixioUi.Foundation.Awaited

/-! # What the application waits for

While a list is loaded, a transfer is prepared or run, or objects are deleted, a flag says
so, and the answer of a task in flight clears it or starts the task whose answer does.
-/

namespace AbixioUi

open Foundation

/-! ## Awaited answers -/

/-- What a flag of the application waits for. -/
inductive AppAwaited
  | buckets
  | objects
  | transferBuckets
  | transferItems
  | transferStep
  | bulkDelete
  | prefixListing
  | prefixDelete
  | bucketPreview (bucket : Str)
  | syncBuckets (source : Bool)
deriving DecidableEq, Repr

def SyncState.loadsBuckets (sync : SyncState) (source : Bool) : Bool :=
  if source then sync.loadingSourceBuckets else sync.loadingDestinationBuckets

/-- The flags. Without a selected bucket no listing is shown, loading or not. -/
def App.awaits (app : App) : AppAwaited → Bool
  | .buckets => app.loadingBuckets
  | .objects => app.loadingObjects && app.selectedBucket.isSome
  | .transferBuckets => app.transfer.any (·.loadingDestinationBuckets)
  | .transferItems => app.transfer.any (·.preparing)
  | .transferStep => app.transfer.any (·.running)
  | .bulkDelete => app.bulkDelete.any (·.deleting)
  | .prefixListing => app.prefixDelete.any (·.loading)
  | .prefixDelete => app.prefixDelete.any (·.deleting)
  | .bucketPreview bucket =>
      app.bucketDelete.any fun state => state.previewLoading && decide (state.bucket = bucket)
  | .syncBuckets source => app.sync.any (·.loadsBuckets source)

def AppTask.answers : AppTask → AppAwaited → Bool
  | .fetchBuckets _, .buckets => true
  | .fetchObjects _ _ _, .objects => true
  | .fetchTransferBuckets _, .transferBuckets => true
  | .prepareTransfer _, .transferItems => true
  | .prepareImport _ _ _, .transferItems => true
  | .prepareExport _ _ _ _, .transferItems => true
  | .runTransfer _ _ _ _ _, .transferStep => true
  | .refuseTransfer _, .transferStep => true
  | .deleteBulk _ _ _, .bulkDelete => true
  | .listPrefix _ _ _, .prefixListing => true
  | .deletePrefix _ _ _, .prefixDelete => true
  | .previewBucket _ bucket, .bucketPreview awaited => decide (bucket = awaited)
  | .fetchSyncSourceBuckets _, .syncBuckets source => source
  | .fetchSyncDestinationBuckets _, .syncBuckets source => !source
  | _, _ => false

/-- How many answers may follow the one that is awaited. -/
def App.left (app : App) : AppAwaited → Nat
  | .transferStep => app.transfer.elim 0 fun state => state.items.length - state.nextIndex
  | .bulkDelete => app.bulkDelete.elim 0 fun state => state.keys.length - state.nextIndex
  | .prefixDelete => app.prefixDelete.elim 0 fun state => state.keys.length - state.nextIndex
  | _ => 0

/-- A handler starts a task for everything it begins to wait for. -/
def App.Waits (app : App) (result : App × List AppTask) : Prop :=
  ∀ awaited, result.1.awaits awaited = true →
    app.awaits awaited = true ∨ ∃ task ∈ result.2, task.answers awaited = true

/-- The handler of an answer leaves the wait over, or starts a task that is nearer to its
end. -/
def App.Ends (app : App) (result : App × List AppTask) (awaited : AppAwaited) : Prop :=
  result.1.awaits awaited = true → ∃ task ∈ result.2, task.answers awaited = true ∧
    result.1.left awaited < app.left awaited

/-! ## Handlers that begin no wait -/

/-- The parts of the application that hold the flags, but for the sync screen. -/
structure Flagged where
  loadingBuckets : Bool
  loadingObjects : Bool
  selectedBucket : Option Str
  transfer : Option TransferState
  bulkDelete : Option BulkDeleteState
  prefixDelete : Option PrefixDeleteState
  bucketDelete : Option BucketDeleteState

def App.flagged (app : App) : Flagged where
  loadingBuckets := app.loadingBuckets
  loadingObjects := app.loadingObjects
  selectedBucket := app.selectedBucket
  transfer := app.transfer
  bulkDelete := app.bulkDelete
  prefixDelete := app.prefixDelete
  bucketDelete := app.bucketDelete

section Waits

variable {app app' : App} {tasks : List AppTask}

/-- Only the flags of the sync screen need a look where the others stay. -/
theorem App.Waits.of_flagged (hflagged : app'.flagged = app.flagged)
    (hsync : ∀ source, app'.awaits (.syncBuckets source) = true →
      app.awaits (.syncBuckets source) = true ∨
        ∃ task ∈ tasks, task.answers (.syncBuckets source) = true) :
    app.Waits (app', tasks) := by
  intro awaited hawaits
  cases awaited with
  | syncBuckets source => exact hsync source hawaits
  | buckets =>
      have hsame : app'.loadingBuckets = app.loadingBuckets :=
        congrArg Flagged.loadingBuckets hflagged
      left
      simpa only [App.awaits, hsame] using hawaits
  | objects =>
      have hloading : app'.loadingObjects = app.loadingObjects :=
        congrArg Flagged.loadingObjects hflagged
      have hbucket : app'.selectedBucket = app.selectedBucket :=
        congrArg Flagged.selectedBucket hflagged
      left
      simpa only [App.awaits, hloading, hbucket] using hawaits
  | transferBuckets | transferItems | transferStep =>
      have hsame : app'.transfer = app.transfer := congrArg Flagged.transfer hflagged
      left
      simpa only [App.awaits, hsame] using hawaits
  | bulkDelete =>
      have hsame : app'.bulkDelete = app.bulkDelete := congrArg Flagged.bulkDelete hflagged
      left
      simpa only [App.awaits, hsame] using hawaits
  | prefixListing | prefixDelete =>
      have hsame : app'.prefixDelete = app.prefixDelete := congrArg Flagged.prefixDelete hflagged
      left
      simpa only [App.awaits, hsame] using hawaits
  | bucketPreview bucket =>
      have hsame : app'.bucketDelete = app.bucketDelete := congrArg Flagged.bucketDelete hflagged
      left
      simpa only [App.awaits, hsame] using hawaits

/-- No flag is touched. -/
theorem App.Waits.of_same (hflagged : app'.flagged = app.flagged) (hsync : app'.sync = app.sync) :
    app.Waits (app', tasks) := by
  refine .of_flagged hflagged fun source hawaits => .inl ?_
  simpa only [App.awaits, hsync] using hawaits

/-- Two parts of a handler, of which the second starts the tasks. -/
theorem App.Waits.of_kept {result : App × List AppTask} (h : app'.Waits result)
    (hkept : ∀ awaited, app'.awaits awaited = true → app.awaits awaited = true) :
    app.Waits result := by
  intro awaited hawaits
  rcases h awaited hawaits with hold | hstarted
  · exact .inl (hkept awaited hold)
  · exact .inr hstarted

/-- Further tasks take no wait away. -/
theorem App.Waits.later {earlier : List AppTask} (h : app.Waits (app', tasks)) :
    app.Waits (app', earlier ++ tasks) := by
  intro awaited hawaits
  rcases h awaited hawaits with hold | ⟨task, htask, hanswers⟩
  · exact .inl hold
  · exact .inr ⟨task, List.mem_append_right earlier htask, hanswers⟩

/-- A refresh of the listing lists what is selected. -/
theorem App.Waits.lists (app : App) :
    app.Waits ({ app with loadingObjects := true }, app.fetchObjects) := by
  intro awaited hawaits
  cases awaited with
  | objects =>
      right
      cases hbucket : app.selectedBucket with
      | none =>
          rw [App.awaits, hbucket] at hawaits
          cases hawaits
      | some bucket =>
          exact ⟨.fetchObjects app.client bucket app.currentPrefix,
            by simp [App.fetchObjects, hbucket], rfl⟩
  | _ => exact .inl hawaits

/-- A refresh of the buckets lists them. -/
theorem App.Waits.buckets (app : App) :
    app.Waits ({ app with loadingBuckets := true }, app.fetchBuckets) := by
  intro awaited hawaits
  cases awaited with
  | buckets => exact .inr ⟨.fetchBuckets app.client, List.mem_singleton_self _, rfl⟩
  | _ => exact .inl hawaits

end Waits

/-! ## The sync screen -/

section Sync

variable (surroundings : Surroundings) (app : App)

/-- The screen is replaced by one that loads no more than it did. -/
theorem App.Waits.of_sync {sync after : SyncState} {tasks : List AppTask}
    (hsync : app.sync = some sync)
    (hloads : ∀ source, after.loadsBuckets source = sync.loadsBuckets source) :
    app.Waits ({ app with sync := some after }, tasks) := by
  refine .of_flagged rfl fun source hawaits => .inl ?_
  simpa [App.awaits, hsync, hloads source] using hawaits

theorem withSync_waits {change : SyncState → SyncState}
    (hloads : ∀ sync source, (change sync).loadsBuckets source = true →
      sync.loadsBuckets source = true) : app.Waits (app.withSync change) := by
  refine .of_flagged rfl fun source hawaits => .inl ?_
  cases hsync : app.sync with
  | none => simp [App.awaits, hsync] at hawaits
  | some sync =>
      simp only [App.awaits, hsync, Option.map_some, Option.any_some] at hawaits ⊢
      exact hloads sync source hawaits

/-- An edit of the configuration loads nothing by itself. -/
theorem editSync_waits {edit : SyncState → SyncState}
    (hloads : ∀ sync source, (edit sync).loadsBuckets source = sync.loadsBuckets source) :
    app.Waits (app.editSync edit) :=
  withSync_waits app fun sync source h => (hloads sync source).symm.trans h

theorem handleSyncSourceConnectionChanged_waits (connectionId : Str) :
    app.Waits (handleSyncSourceConnectionChanged surroundings app connectionId) := by
  refine .of_flagged rfl fun source hawaits => ?_
  cases source with
  | true => exact .inr ⟨_, List.mem_singleton_self _, rfl⟩
  | false =>
      left
      cases hsync : app.sync with
      | none => simp [App.editSync, App.withSync, App.awaits, hsync] at hawaits
      | some sync =>
          simpa [App.editSync, App.withSync, App.awaits, hsync, SyncState.loadsBuckets,
            clearSyncPlan] using hawaits

theorem handleSyncDestinationConnectionChanged_waits (connectionId : Str) :
    app.Waits (handleSyncDestinationConnectionChanged surroundings app connectionId) := by
  refine .of_flagged rfl fun source hawaits => ?_
  cases source with
  | false => exact .inr ⟨_, List.mem_singleton_self _, rfl⟩
  | true =>
      left
      cases hsync : app.sync with
      | none => simp [App.editSync, App.withSync, App.awaits, hsync] at hawaits
      | some sync =>
          simpa [App.editSync, App.withSync, App.awaits, hsync, SyncState.loadsBuckets,
            clearSyncPlan] using hawaits

theorem startEnumeration_waits {held : SyncState} (sync : SyncState)
    (hsync : app.sync = some held)
    (hloads : ∀ source, sync.loadsBuckets source = held.loadsBuckets source) (source : Bool) :
    app.Waits (app.startEnumeration surroundings sync source) := by
  unfold App.startEnumeration
  cases enumerateTask surroundings app (syncEndpointParams sync source) source with
  | ok task => exact .of_sync app hsync hloads
  | error error => exact .of_sync app hsync hloads

theorem handleStartSyncPlan_waits : app.Waits (handleStartSyncPlan surroundings app) := by
  unfold handleStartSyncPlan
  cases hsync : app.sync with
  | none => exact .of_same rfl rfl
  | some sync =>
      simp only
      split
      next => exact .of_sync app hsync fun _ => rfl
      next =>
        refine startEnumeration_waits surroundings app _ hsync ?_ true
        exact fun _ => rfl

theorem handleSyncSourceEnumerated_waits (result : Except String (List SyncObject)) :
    app.Waits (handleSyncSourceEnumerated surroundings app result) := by
  unfold handleSyncSourceEnumerated
  cases hsync : app.sync with
  | none => exact .of_same rfl rfl
  | some sync =>
      cases result with
      | error error => exact .of_sync app hsync fun _ => rfl
      | ok objects =>
          refine startEnumeration_waits surroundings app _ hsync ?_ false
          exact fun _ => rfl

theorem handleSyncDestinationEnumerated_waits (result : Except String (List SyncObject)) :
    app.Waits (handleSyncDestinationEnumerated app result) := by
  unfold handleSyncDestinationEnumerated
  cases hsync : app.sync with
  | none => exact .of_same rfl rfl
  | some sync =>
      cases result with
      | error error => exact .of_sync app hsync fun _ => rfl
      | ok objects =>
          simp only
          split
          next => exact .of_sync app hsync fun _ => rfl
          next =>
            split
            next => exact .of_sync app hsync fun _ => rfl
            next => exact .of_sync app hsync fun _ => rfl

theorem withPlan_loadsBuckets (platform : Platform) (sync : SyncState) (plan : SyncPlan)
    (source : Bool) :
    (sync.withPlan platform plan).loadsBuckets source = sync.loadsBuckets source := by
  unfold SyncState.withPlan
  cases sync.mode with
  | diff => rfl
  | copy | sync =>
      simp only
      split
      next => rfl
      next => rfl

theorem handleSyncPlanBuilt_waits (platform : Platform) (result : Except String SyncPlan) :
    app.Waits (handleSyncPlanBuilt platform app result) := by
  refine withSync_waits app fun sync source h => ?_
  cases result with
  | ok plan =>
      have hplan : (SyncState.withPlan platform _ plan).loadsBuckets source = true := h
      rwa [withPlan_loadsBuckets] at hplan
  | error error => exact h

/-- A dispatch hands out tasks and touches the execution only. -/
theorem dispatched_waits {held sync : SyncState} {error : Option String}
    (hsync : app.sync = some held)
    (hloads : ∀ source, sync.loadsBuckets source = held.loadsBuckets source) :
    app.Waits ({ app with error := error }.dispatched surroundings
      (dispatchSyncExecution sync)) := by
  obtain ⟨execution, stage, hframe⟩ := dispatchSyncExecution_frame sync
  unfold App.dispatched
  rw [hframe]
  exact .of_flagged rfl fun source hawaits => .inl (by
    simpa [App.awaits, hsync, hloads source] using
      (show sync.loadsBuckets source = true from hawaits))

theorem startCopyExecution_loadsBuckets (sync : SyncState) (source : Bool) :
    (startCopyExecution sync).loadsBuckets source = sync.loadsBuckets source := by
  unfold startCopyExecution
  cases sync.runPlan <;> rfl

theorem startSyncExecution_loadsBuckets (sync : SyncState) (source : Bool) :
    (startSyncExecution sync).loadsBuckets source = sync.loadsBuckets source := by
  unfold startSyncExecution
  cases sync.runPlan <;> rfl

theorem handleStartSyncCopy_waits : app.Waits (handleStartSyncCopy surroundings app) := by
  unfold handleStartSyncCopy
  cases hsync : app.sync with
  | none => exact .of_same rfl rfl
  | some sync =>
      simp only
      split
      next => exact .of_same rfl rfl
      next =>
        split
        next => exact .of_sync app hsync fun _ => rfl
        next =>
          split
          next => exact .of_sync app hsync fun _ => rfl
          next =>
            exact dispatched_waits surroundings app hsync (startCopyExecution_loadsBuckets sync)

theorem handleStartSync_waits : app.Waits (handleStartSync surroundings app) := by
  unfold handleStartSync
  cases hsync : app.sync with
  | none => exact .of_same rfl rfl
  | some sync =>
      simp only
      split
      next => exact .of_same rfl rfl
      next =>
        split
        next => exact .of_sync app hsync fun _ => rfl
        next =>
          split
          next =>
            exact dispatched_waits surroundings app hsync
              (startSyncExecution_loadsBuckets { sync with error := none, deleteConfirm := none })
          next => exact .of_sync app hsync fun _ => rfl

theorem handleConfirmSyncDeleteRun_waits :
    app.Waits (handleConfirmSyncDeleteRun surroundings app) := by
  unfold handleConfirmSyncDeleteRun
  cases hsync : app.sync with
  | none => exact .of_same rfl rfl
  | some sync =>
      simp only
      split
      next => exact .of_same rfl rfl
      next =>
        split
        next => exact .of_sync app hsync fun _ => rfl
        next =>
          exact dispatched_waits surroundings app hsync
            (startSyncExecution_loadsBuckets { sync with deleteConfirm := none, error := none })

theorem handleSyncCopyStepFinished_waits (result : Except String SyncRunItem) :
    app.Waits (handleSyncCopyStepFinished surroundings app result) := by
  unfold handleSyncCopyStepFinished
  cases hsync : app.sync with
  | none => exact .of_same rfl rfl
  | some sync =>
      cases hexecution : sync.execution with
      | none =>
          simp only [hexecution]
          exact .of_same rfl rfl
      | some execution =>
          simp only [hexecution, copyStepFinished]
          exact dispatched_waits surroundings app hsync fun _ => rfl

theorem handleSyncDeleteBatchFinished_waits (result : Except String SyncDeleteBatchResult) :
    app.Waits (handleSyncDeleteBatchFinished surroundings app result) := by
  unfold handleSyncDeleteBatchFinished
  cases hsync : app.sync with
  | none => exact .of_same rfl rfl
  | some sync =>
      cases hexecution : sync.execution with
      | none =>
          simp only [hexecution]
          exact .of_same rfl rfl
      | some execution =>
          simp only [hexecution, deleteBatchFinished]
          exact dispatched_waits surroundings app hsync fun _ => rfl

end Sync

/-! ## The transfer modal -/

section Transfers

variable (platform : Platform) (surroundings : Surroundings) (app : App)

/-- The flags of the transfer modal alone need a look where the rest is as
`TransferOutcome` says. -/
theorem TransferOutcome.waits {result : App × List AppTask}
    (h : TransferOutcome surroundings app result)
    (htransfer : ∀ awaited, (awaited = .transferBuckets ∨ awaited = .transferItems ∨
        awaited = .transferStep) → result.1.awaits awaited = true →
      app.awaits awaited = true ∨ ∃ task ∈ result.2, task.answers awaited = true) :
    app.Waits result := by
  intro awaited hawaits
  cases awaited with
  | transferBuckets => exact htransfer _ (.inl rfl) hawaits
  | transferItems => exact htransfer _ (.inr (.inl rfl)) hawaits
  | transferStep => exact htransfer _ (.inr (.inr rfl)) hawaits
  | objects =>
      cases h with
      | lists => exact App.Waits.lists app .objects hawaits
      | _ => exact .inl hawaits
  | _ =>
      left
      cases h <;> exact hawaits

/-- A modal loads buckets as it opens only where the object is on a saved connection. -/
theorem opened_waits_buckets {message : Message} (h : message.opensTransfer = true)
    (hawaits : (app.update platform surroundings message).1.awaits .transferBuckets = true) :
    app.awaits .transferBuckets = true ∨ ∃ task ∈ (app.update platform surroundings message).2,
      task.answers .transferBuckets = true := by
  cases message with
  | openCopyObject =>
      simp only [App.update, handleOpenCopyObject] at hawaits ⊢
      cases hselected : app.currentSelectedObject with
      | none =>
          rw [hselected] at hawaits
          exact .inl hawaits
      | some object =>
          simp only [hselected] at hawaits ⊢
          by_cases hcurrent : app.currentConnectionId = CURRENT_CONNECTION_ID
          · simp [App.awaits, hcurrent] at hawaits
          · simp only [hcurrent, decide_false, Bool.false_eq_true, if_false]
            exact .inr ⟨_, List.mem_singleton_self _, rfl⟩
  | openMoveObject | openRenameObject =>
      simp only [App.update, handleOpenMoveObject, handleOpenRenameObject, openMoveModal] at hawaits
      cases hselected : app.currentSelectedObject with
      | none =>
          rw [hselected] at hawaits
          exact .inl hawaits
      | some object =>
          rw [hselected] at hawaits
          cases hawaits
  | openImportFolder =>
      simp only [App.update, handleOpenImportFolder] at hawaits
      split at hawaits
      next => cases hawaits
      next => exact .inl hawaits
  | openExportPrefix =>
      simp only [App.update, handleOpenExportPrefix] at hawaits
      split at hawaits
      next => cases hawaits
      next => exact .inl hawaits
  | _ => cases h

/-- A fresh modal waits for a list of buckets at most. -/
theorem opened_waits {message : Message} (h : message.opensTransfer = true) :
    app.Waits (app.update platform surroundings message) := by
  have hof : message.ofTransfer = true := by
    cases message <;> first | rfl | cases h
  refine (update_transferOutcome platform surroundings app hof).waits surroundings app ?_
  rcases update_opens platform surroundings app h with heq | ⟨⟨transfer, htransfer, hfresh⟩, -⟩
  · rintro awaited - hawaits
    rw [heq] at hawaits
    exact .inl hawaits
  · rintro awaited (rfl | rfl | rfl) hawaits
    · exact opened_waits_buckets platform surroundings app h hawaits
    · simp [App.awaits, htransfer, hfresh.preparing] at hawaits
    · simp [App.awaits, htransfer, hfresh.running] at hawaits

theorem transferStepTask_answers (item : TransferItem) (overwritePolicy : OverwritePolicy)
    (isMove : Bool) :
    (app.transferStepTask surroundings item overwritePolicy isMove).answers .transferStep =
      true := by
  unfold App.transferStepTask
  cases app.endpointClient surroundings item.destination <;> rfl

theorem prepareTask_answers (client : S3Client) (transfer : TransferState) :
    (transfer.prepareTask client).answers .transferItems = true := by
  unfold TransferState.prepareTask
  cases transfer.mode <;> rfl

/-- A step that is taken is in flight, and is about an item of the list. -/
theorem Proceeds.waits {next after : TransferState} {tasks : List AppTask}
    (h : Proceeds platform surroundings app next after tasks) :
    after.preparing = next.preparing ∧
      after.loadingDestinationBuckets = next.loadingDestinationBuckets ∧
      (after.running = true → (∃ task ∈ tasks, task.answers .transferStep = true) ∧
        after.items = next.items ∧ after.nextIndex = next.nextIndex ∧
        next.nextIndex < next.items.length) := by
  cases h with
  | step item hitem =>
      refine ⟨rfl, rfl, fun _ => ⟨⟨_, List.mem_singleton_self _, ?_⟩, rfl, rfl, ?_⟩⟩
      · exact transferStepTask_answers surroundings app item _ _
      · exact (List.getElem?_eq_some_iff.mp hitem).1
  | done _ _ _ => exact ⟨rfl, rfl, nofun⟩

/-- What an open modal waits for after a message. -/
structure KeepsModal (transfer after : TransferState) (message : Message)
    (tasks : List AppTask) : Prop where
  preparing : after.preparing = true → transfer.preparing = true ∨
    ∃ task ∈ tasks, task.answers .transferItems = true
  running : after.running = true → transfer.running = true ∨
    ∃ task ∈ tasks, task.answers .transferStep = true
  loading : message.editsTransfer = false →
    after.loadingDestinationBuckets = transfer.loadingDestinationBuckets

theorem Proceeds.keepsModal {transfer next after : TransferState} {message : Message}
    {tasks : List AppTask} (h : Proceeds platform surroundings app next after tasks)
    (hpreparing : next.preparing = true → transfer.preparing = true)
    (hloading : next.loadingDestinationBuckets = transfer.loadingDestinationBuckets) :
    KeepsModal transfer after message tasks := by
  obtain ⟨hsame, hsame', hrunning⟩ := h.waits
  constructor
  · intro hafter
    exact .inl (hpreparing (hsame ▸ hafter))
  · intro hafter
    exact .inr (hrunning hafter).1
  · intro _
    exact hsame'.trans hloading

theorem ModalMove.keepsModal {transfer after : TransferState} {message : Message}
    {tasks : List AppTask} (h : ModalMove platform surroundings app transfer message after tasks) :
    KeepsModal transfer after message tasks := by
  cases h with
  | edited _ hedits => exact ⟨.inl, .inl, fun hother => by rw [hedits] at hother; cases hother⟩
  | ignored => exact ⟨.inl, .inl, fun _ => rfl⟩
  | started _ =>
      exact ⟨fun _ => .inr ⟨_, List.mem_singleton_self _, prepareTask_answers _ _⟩, .inl,
        fun _ => rfl⟩
  | unprepared | empty => exact ⟨nofun, nofun, fun _ => rfl⟩
  | prepared items _ _ _ hproceeds =>
      exact hproceeds.keepsModal platform surroundings app nofun rfl
  | conflict _ => exact ⟨.inl, nofun, fun _ => rfl⟩
  | finished _ _ _ _ _ _ hproceeds | skipped _ _ _ _ _ _ _ hproceeds =>
      exact hproceeds.keepsModal platform surroundings app id rfl
  | overwritten _ _ item _ _ =>
      exact ⟨.inl, fun _ => .inr ⟨_, List.mem_singleton_self _,
        transferStepTask_answers surroundings app item _ _⟩, fun _ => rfl⟩

/-- The list of buckets of an open modal is loaded where the connection changes. -/
theorem update_transferBuckets {message : Message} (h : message.editsTransfer = true)
    (hawaits : (app.update platform surroundings message).1.awaits .transferBuckets = true) :
    app.awaits .transferBuckets = true ∨
      ∃ task ∈ (app.update platform surroundings message).2,
        task.answers .transferBuckets = true := by
  cases htransfer : app.transfer with
  | none =>
      cases message with
      | transferDestinationConnectionChanged _ | transferDestinationBucketChanged _
      | transferDestinationKeyChanged _ | transferDestinationBucketsLoaded _ =>
          simp [App.update, handleTransferDestinationConnectionChanged,
            handleTransferDestinationBucketChanged, handleTransferDestinationKeyChanged,
            handleTransferDestinationBucketsLoaded, App.editTransfer, App.awaits,
            htransfer] at hawaits
      | _ => cases h
  | some transfer =>
      cases message with
      | transferDestinationConnectionChanged connectionId =>
          right
          simp only [App.update, handleTransferDestinationConnectionChanged, htransfer]
          exact ⟨_, List.mem_singleton_self _, rfl⟩
      | transferDestinationBucketChanged _ | transferDestinationKeyChanged _ =>
          left
          simpa [App.update, handleTransferDestinationBucketChanged,
            handleTransferDestinationKeyChanged, App.editTransfer, App.awaits,
            htransfer] using hawaits
      | transferDestinationBucketsLoaded _ =>
          simp [App.update, handleTransferDestinationBucketsLoaded, App.editTransfer, App.awaits,
            htransfer] at hawaits
      | _ => cases h

/-- Without a modal its messages do nothing. -/
theorem update_transfer_none (htransfer : app.transfer = none) {message : Message}
    (h : message.reachesModal = true) :
    (app.update platform surroundings message).1.transfer = none := by
  cases message with
  | startTransfer =>
      simp [App.update, handleStartTransfer, App.transferCanStart, htransfer]
  | transferPrepared _ => simp [App.update, handleTransferPrepared, htransfer]
  | transferStepFinished _ => simp [App.update, handleTransferStepFinished, htransfer]
  | transferConflictOverwrite =>
      simp [App.update, handleTransferConflictOverwrite, resolveTransferConflict, htransfer]
  | transferConflictSkip =>
      simp [App.update, handleTransferConflictSkip, resolveTransferConflict, htransfer]
  | transferConflictOverwriteAll =>
      simp [App.update, handleTransferConflictOverwriteAll, resolveTransferConflict, htransfer]
  | transferConflictSkipAll =>
      simp [App.update, handleTransferConflictSkipAll, resolveTransferConflict, htransfer]
  | transferDestinationConnectionChanged _ =>
      simp [App.update, handleTransferDestinationConnectionChanged, htransfer]
  | transferDestinationBucketChanged _ =>
      simp [App.update, handleTransferDestinationBucketChanged, App.editTransfer, htransfer]
  | transferDestinationKeyChanged _ =>
      simp [App.update, handleTransferDestinationKeyChanged, App.editTransfer, htransfer]
  | transferDestinationBucketsLoaded _ =>
      simp [App.update, handleTransferDestinationBucketsLoaded, App.editTransfer, htransfer]
  | _ => cases h

theorem reached_waits {message : Message} (h : message.reachesModal = true) :
    app.Waits (app.update platform surroundings message) := by
  have hof : message.ofTransfer = true := by
    cases message <;> first | rfl | cases h
  refine (update_transferOutcome platform surroundings app hof).waits surroundings app ?_
  intro awaited hawaited hawaits
  cases htransfer : app.transfer with
  | none =>
      have hnone := update_transfer_none platform surroundings app htransfer h
      rcases hawaited with rfl | rfl | rfl <;> simp [App.awaits, hnone] at hawaits
  | some transfer =>
      obtain ⟨after, hafter, hmove⟩ :=
        (@update_moves platform surroundings app transfer htransfer message h).move
      have hkeeps := hmove.keepsModal platform surroundings app
      rcases hawaited with rfl | rfl | rfl
      · cases hedits : message.editsTransfer with
        | true => exact update_transferBuckets platform surroundings app hedits hawaits
        | false =>
            left
            rw [App.awaits, hafter] at hawaits
            rw [App.awaits, htransfer]
            exact (hkeeps.loading hedits).symm.trans hawaits
      · rw [App.awaits, hafter] at hawaits
        rw [App.awaits, htransfer]
        exact hkeeps.preparing hawaits
      · rw [App.awaits, hafter] at hawaits
        rw [App.awaits, htransfer]
        exact hkeeps.running hawaits

theorem closeTransferModal_waits :
    app.Waits (app.update platform surroundings .closeTransferModal) := by
  simp only [App.update, handleCloseTransferModal]
  cases htransfer : app.transfer with
  | none => exact .of_same rfl rfl
  | some transfer =>
      simp only
      split
      next => exact .of_same rfl rfl
      next =>
        intro awaited hawaits
        cases awaited with
        | transferBuckets | transferItems | transferStep => cases hawaits
        | _ => exact .inl hawaits

theorem update_transfer_waits {message : Message} (h : message.ofTransfer = true) :
    app.Waits (app.update platform surroundings message) := by
  cases message with
  | openCopyObject | openMoveObject | openRenameObject | openImportFolder | openExportPrefix =>
      exact opened_waits platform surroundings app rfl
  | closeTransferModal => exact closeTransferModal_waits platform surroundings app
  | transferDestinationConnectionChanged _ | transferDestinationBucketChanged _
  | transferDestinationKeyChanged _ | transferDestinationBucketsLoaded _ | startTransfer
  | transferPrepared _ | transferStepFinished _ | transferConflictOverwrite
  | transferConflictSkip | transferConflictOverwriteAll | transferConflictSkipAll =>
      exact reached_waits platform surroundings app rfl
  | _ => cases h

/-! ### Answers of the transfer modal -/

theorem transferBuckets_ends (result : Except String (List Str)) :
    app.Ends (handleTransferDestinationBucketsLoaded app result) .transferBuckets := by
  intro hawaits
  cases htransfer : app.transfer <;>
    simp [handleTransferDestinationBucketsLoaded, App.editTransfer, App.awaits,
      htransfer] at hawaits

theorem ModalMove.items_end {transfer after : TransferState} {tasks : List AppTask}
    {result : Except String (List TransferItem)}
    (h : ModalMove platform surroundings app transfer (.transferPrepared result) after tasks) :
    after.preparing = false := by
  cases h with
  | edited _ hedits => cases hedits
  | ignored _ hignored => simp [Message.skips, Message.overwrites] at hignored
  | unprepared | empty => rfl
  | prepared _ _ _ _ hproceeds => exact (hproceeds.waits platform surroundings app).1
  | skipped _ hskips => cases hskips
  | overwritten _ hoverwrites => cases hoverwrites

theorem transferItems_ends (result : Except String (List TransferItem)) :
    app.Ends (handleTransferPrepared platform surroundings app result) .transferItems := by
  intro hawaits
  cases htransfer : app.transfer with
  | none => simp [handleTransferPrepared, App.awaits, htransfer] at hawaits
  | some transfer =>
      obtain ⟨after, hafter, hmove⟩ :=
        (@handleTransferPrepared_moves platform surroundings app transfer htransfer result).move
      rw [App.awaits, hafter] at hawaits
      exact absurd hawaits (by simp [hmove.items_end platform surroundings app])

/-- A step that ended is followed by the step of the next item, if there is one. -/
theorem ModalMove.step_ends {transfer after : TransferState} {tasks : List AppTask}
    {result : Except String TransferStepResult}
    (h : ModalMove platform surroundings app transfer (.transferStepFinished result) after tasks)
    (hrunning : after.running = true) :
    (∃ task ∈ tasks, task.answers .transferStep = true) ∧
      after.items.length - after.nextIndex < transfer.items.length - transfer.nextIndex := by
  cases h with
  | edited _ hedits => cases hedits
  | ignored _ hignored => simp [Message.skips, Message.overwrites] at hignored
  | conflict _ => cases hrunning
  | finished _ outcome _ _ _ _ hproceeds =>
      obtain ⟨hstep, hitems, hindex, hmore⟩ :=
        (hproceeds.waits platform surroundings app).2.2 hrunning
      refine ⟨hstep, ?_⟩
      rw [hitems, hindex]
      simp only [TransferState.counting] at hmore ⊢
      omega
  | skipped _ hskips => cases hskips
  | overwritten _ hoverwrites => cases hoverwrites

theorem transferStep_ends (result : Except String TransferStepResult) :
    app.Ends (handleTransferStepFinished platform surroundings app result) .transferStep := by
  intro hawaits
  cases htransfer : app.transfer with
  | none => simp [handleTransferStepFinished, App.awaits, htransfer] at hawaits
  | some transfer =>
      obtain ⟨after, hafter, hmove⟩ :=
        (@handleTransferStepFinished_moves platform surroundings app transfer htransfer
          result).move
      rw [App.awaits, hafter] at hawaits
      obtain ⟨⟨task, htask, hanswers⟩, hless⟩ := hmove.step_ends platform surroundings app hawaits
      refine ⟨task, htask, hanswers, ?_⟩
      rw [App.left, App.left, hafter, htransfer]
      exact hless

end Transfers

/-! ## The delete modals -/

section Deletes

variable (app : App)

/-- The application after the last batch lists what is selected. -/
theorem deletesDone_waits (summary : String) : app.Waits (app.deletesDone summary) := by
  have hlists := App.Waits.lists { app with selectedKeys := [], error := some summary }
  exact hlists.of_kept fun awaited hawaits => by cases awaited <;> exact hawaits

/-- A batch holds a key where any is left. -/
theorem nextKeyBatch_nearer {keys : List Str} {nextIndex : Nat} (h : nextIndex < keys.length) :
    keys.length - (nextIndex + (nextKeyBatch keys nextIndex).length) <
      keys.length - nextIndex := by
  have hlength : (nextKeyBatch keys nextIndex).length =
      min DELETE_BATCH_LIMIT (keys.length - nextIndex) := by
    simp [nextKeyBatch]
  have hlimit : 0 < DELETE_BATCH_LIMIT := by decide
  omega

/-! ### Bulk delete -/

theorem processNextBulkDeleteStep_waits : app.Waits (processNextBulkDeleteStep app) := by
  unfold processNextBulkDeleteStep
  cases hbulk : app.bulkDelete with
  | none => exact .of_same rfl rfl
  | some state =>
      by_cases hmore : state.nextIndex < state.keys.length
      · simp only [hmore, if_true]
        intro awaited hawaits
        cases awaited with
        | bulkDelete => exact .inr ⟨_, List.mem_singleton_self _, rfl⟩
        | _ => exact .inl hawaits
      · simp only [hmore, if_false]
        refine (deletesDone_waits _ _).of_kept fun awaited hawaits => ?_
        cases awaited with
        | bulkDelete => cases hawaits
        | _ => exact hawaits

theorem handleOpenBulkDeleteModal_waits : app.Waits (handleOpenBulkDeleteModal app) := by
  unfold handleOpenBulkDeleteModal
  split
  next => exact .of_same rfl rfl
  next =>
    split
    next => exact .of_same rfl rfl
    next =>
      intro awaited hawaits
      cases awaited with
      | bulkDelete => cases hawaits
      | _ => exact .inl hawaits

theorem handleCloseBulkDeleteModal_waits : app.Waits (handleCloseBulkDeleteModal app) := by
  intro awaited hawaits
  cases awaited with
  | bulkDelete => cases hawaits
  | _ => exact .inl hawaits

theorem handleBulkDeleteBatchFinished_waits (result : Except String Nat) :
    app.Waits (handleBulkDeleteBatchFinished app result) := by
  unfold handleBulkDeleteBatchFinished
  cases hbulk : app.bulkDelete with
  | none => exact .of_same rfl rfl
  | some state =>
      cases result with
      | error e =>
          intro awaited hawaits
          cases awaited with
          | bulkDelete => cases hawaits
          | _ => exact .inl hawaits
      | ok count =>
          refine (processNextBulkDeleteStep_waits _).of_kept fun awaited hawaits => ?_
          cases awaited with
          | bulkDelete =>
              rw [App.awaits, hbulk]
              exact hawaits
          | _ => exact hawaits

/-- A batch that ended is followed by the next one, if keys are left. -/
theorem bulkDelete_ends (result : Except String Nat) :
    app.Ends (handleBulkDeleteBatchFinished app result) .bulkDelete := by
  unfold handleBulkDeleteBatchFinished processNextBulkDeleteStep
  cases hbulk : app.bulkDelete with
  | none =>
      intro hawaits
      simp [App.awaits, hbulk] at hawaits
  | some state =>
      cases result with
      | error e => exact fun hawaits => by cases hawaits
      | ok count =>
          by_cases hmore : state.nextIndex < state.keys.length
          · simp only [hmore, if_true]
            refine fun _ => ⟨_, List.mem_singleton_self _, rfl, ?_⟩
            rw [App.left, App.left, hbulk]
            exact nextKeyBatch_nearer hmore
          · simp only [hmore, if_false]
            exact fun hawaits => by cases hawaits

/-! ### Prefix delete -/

theorem processNextPrefixDeleteBatch_waits : app.Waits (processNextPrefixDeleteBatch app) := by
  unfold processNextPrefixDeleteBatch
  cases hprefix : app.prefixDelete with
  | none => exact .of_same rfl rfl
  | some state =>
      by_cases hmore : state.nextIndex < state.keys.length
      · simp only [hmore, if_true]
        intro awaited hawaits
        cases awaited with
        | prefixDelete => exact .inr ⟨_, List.mem_singleton_self _, rfl⟩
        | prefixListing =>
            left
            rw [App.awaits, hprefix]
            exact hawaits
        | _ => exact .inl hawaits
      · simp only [hmore, if_false]
        refine (deletesDone_waits _ _).of_kept fun awaited hawaits => ?_
        cases awaited with
        | prefixDelete | prefixListing => cases hawaits
        | _ => exact hawaits

theorem handleOpenPrefixDeleteModal_waits (keyPrefix : Str) :
    app.Waits (handleOpenPrefixDeleteModal app keyPrefix) := by
  unfold handleOpenPrefixDeleteModal
  split
  next => exact .of_same rfl rfl
  next =>
    intro awaited hawaits
    cases awaited with
    | prefixListing => exact .inr ⟨_, List.mem_singleton_self _, rfl⟩
    | prefixDelete => cases hawaits
    | _ => exact .inl hawaits

theorem handleClosePrefixDeleteModal_waits : app.Waits (handleClosePrefixDeleteModal app) := by
  intro awaited hawaits
  cases awaited with
  | prefixListing | prefixDelete => cases hawaits
  | _ => exact .inl hawaits

theorem handlePrefixDeleteListLoaded_waits (result : Except String (List Str)) :
    app.Waits (handlePrefixDeleteListLoaded app result) := by
  unfold handlePrefixDeleteListLoaded
  cases hprefix : app.prefixDelete with
  | none => exact .of_same rfl rfl
  | some state =>
      cases result <;>
      · intro awaited hawaits
        cases awaited with
        | prefixListing => cases hawaits
        | prefixDelete =>
            left
            rw [App.awaits, hprefix]
            exact hawaits
        | _ => exact .inl hawaits

theorem handlePrefixDeleteBatchFinished_waits (result : Except String Nat) :
    app.Waits (handlePrefixDeleteBatchFinished app result) := by
  unfold handlePrefixDeleteBatchFinished
  cases hprefix : app.prefixDelete with
  | none => exact .of_same rfl rfl
  | some state =>
      cases result with
      | error e =>
          intro awaited hawaits
          cases awaited with
          | prefixDelete => cases hawaits
          | prefixListing =>
              left
              rw [App.awaits, hprefix]
              exact hawaits
          | _ => exact .inl hawaits
      | ok count =>
          refine (processNextPrefixDeleteBatch_waits _).of_kept fun awaited hawaits => ?_
          cases awaited with
          | prefixDelete | prefixListing =>
              rw [App.awaits, hprefix]
              exact hawaits
          | _ => exact hawaits

theorem prefixListing_ends (result : Except String (List Str)) :
    app.Ends (handlePrefixDeleteListLoaded app result) .prefixListing := by
  unfold handlePrefixDeleteListLoaded
  cases hprefix : app.prefixDelete with
  | none =>
      intro hawaits
      simp [App.awaits, hprefix] at hawaits
  | some state => cases result <;> exact fun hawaits => by cases hawaits

theorem prefixDelete_ends (result : Except String Nat) :
    app.Ends (handlePrefixDeleteBatchFinished app result) .prefixDelete := by
  unfold handlePrefixDeleteBatchFinished processNextPrefixDeleteBatch
  cases hprefix : app.prefixDelete with
  | none =>
      intro hawaits
      simp [App.awaits, hprefix] at hawaits
  | some state =>
      cases result with
      | error e => exact fun hawaits => by cases hawaits
      | ok count =>
          by_cases hmore : state.nextIndex < state.keys.length
          · simp only [hmore, if_true]
            refine fun _ => ⟨_, List.mem_singleton_self _, rfl, ?_⟩
            rw [App.left, App.left, hprefix]
            exact nextKeyBatch_nearer hmore
          · simp only [hmore, if_false]
            exact fun hawaits => by cases hawaits

/-! ### Bucket delete -/

theorem processNextBucketDeleteStep_waits : app.Waits (processNextBucketDeleteStep app) := by
  unfold processNextBucketDeleteStep
  cases hbucket : app.bucketDelete with
  | none => exact .of_same rfl rfl
  | some state =>
      simp only
      split
      next => exact .of_same rfl rfl
      next =>
        intro awaited hawaits
        cases awaited with
        | bucketPreview bucket =>
            left
            rw [App.awaits, hbucket]
            exact hawaits
        | _ => exact .inl hawaits

theorem handleOpenDeleteBucketModal_waits : app.Waits (handleOpenDeleteBucketModal app) := by
  unfold handleOpenDeleteBucketModal
  split
  next => exact .of_same rfl rfl
  next bucket _ =>
    intro awaited hawaits
    cases awaited with
    | bucketPreview previewed =>
        right
        exact ⟨_, List.mem_singleton_self _, hawaits⟩
    | _ => exact .inl hawaits

theorem handleCloseDeleteBucketModal_waits : app.Waits (handleCloseDeleteBucketModal app) := by
  have hclosed : app.Waits ({ app with bucketDelete := none }, []) := by
    intro awaited hawaits
    cases awaited with
    | bucketPreview _ => cases hawaits
    | _ => exact .inl hawaits
  unfold handleCloseDeleteBucketModal
  split
  next => exact hclosed
  next =>
    split
    next => exact .of_same rfl rfl
    next => exact hclosed

theorem handleBucketDeletePreviewLoaded_waits (bucket : Str) (result : Except String (List Str)) :
    app.Waits (handleBucketDeletePreviewLoaded app bucket result) := by
  unfold handleBucketDeletePreviewLoaded
  split
  next => exact .of_same rfl rfl
  next =>
    split
    next => exact .of_same rfl rfl
    next =>
      cases result <;>
      · intro awaited hawaits
        cases awaited with
        | bucketPreview _ => cases hawaits
        | _ => exact .inl hawaits

theorem handleBucketDeleteConfirmNameChanged_waits (value : Str) :
    app.Waits (handleBucketDeleteConfirmNameChanged app value) := by
  intro awaited hawaits
  cases awaited with
  | bucketPreview bucket =>
      left
      cases hbucket : app.bucketDelete with
      | none => simp [handleBucketDeleteConfirmNameChanged, App.awaits, hbucket] at hawaits
      | some state =>
          simpa [handleBucketDeleteConfirmNameChanged, App.awaits, hbucket] using hawaits
  | _ => exact .inl hawaits

theorem handleBucketDeleteStepFinished_waits (result : Except String BucketDeleteStepResult) :
    app.Waits (handleBucketDeleteStepFinished app result) := by
  unfold handleBucketDeleteStepFinished
  cases hbucket : app.bucketDelete with
  | none => exact .of_same rfl rfl
  | some state =>
      match result with
      | .ok (.objectDeleted label) =>
          refine (processNextBucketDeleteStep_waits _).of_kept fun awaited hawaits => ?_
          cases awaited with
          | bucketPreview _ =>
              rw [App.awaits, hbucket]
              exact hawaits
          | _ => exact hawaits
      | .ok (.bucketDeleted bucket) =>
          refine (App.Waits.buckets _).of_kept fun awaited hawaits => ?_
          simp only at hawaits
          split at hawaits
          next =>
            cases awaited with
            | bucketPreview _ => cases hawaits
            | objects => simp [App.awaits, App.bucketGone] at hawaits
            | _ => exact hawaits
          next =>
            cases awaited with
            | bucketPreview _ => cases hawaits
            | _ => exact hawaits
      | .error error =>
          have hstopped : ∀ awaited, { app with
              bucketDelete := some
                { state with
                  deleting := false
                  summary := some ("Delete stopped after " ++ toString state.deletedObjects ++
                    " of " ++ toString state.totalObjects ++ " objects: " ++ error) }
              error := some ("Delete bucket failed: " ++ error) }.awaits awaited = true →
              app.awaits awaited = true := by
            intro awaited hawaits
            cases awaited with
            | bucketPreview _ =>
                rw [App.awaits, hbucket]
                exact hawaits
            | _ => exact hawaits
          simp only
          split
          next => exact (App.Waits.lists _).later.of_kept hstopped
          next => exact (App.Waits.buckets _).of_kept hstopped

theorem bucketPreview_ends (bucket : Str) (result : Except String (List Str)) :
    app.Ends (handleBucketDeletePreviewLoaded app bucket result) (.bucketPreview bucket) := by
  unfold handleBucketDeletePreviewLoaded
  cases hbucket : app.bucketDelete with
  | none =>
      intro hawaits
      simp [App.awaits, hbucket] at hawaits
  | some state =>
      by_cases hsame : state.bucket = bucket
      · simp only [hsame, ne_eq, not_true_eq_false, if_false]
        cases result <;> exact fun hawaits => by cases hawaits
      · intro hawaits
        simp [hsame, App.awaits, hbucket] at hawaits

end Deletes

/-! ## Connections and the server -/

section Connections

variable (surroundings : Surroundings) (app : App)

/-- A new client lists its buckets, and no bucket is selected. -/
theorem connected_waits (client : S3Client) (endpoint name : Str) :
    app.Waits (app.connected client endpoint name,
      (app.connected client endpoint name).fetchBuckets) := by
  intro awaited hawaits
  cases awaited with
  | buckets => exact .inr ⟨_, List.mem_singleton_self _, rfl⟩
  | objects => simp [App.connected, App.awaits] at hawaits
  | _ => exact .inl hawaits

theorem handleConnectTo_waits (name : Str) :
    app.Waits (handleConnectTo surroundings app name) := by
  unfold handleConnectTo
  cases app.connections.find? (·.name = name) with
  | none => exact .of_same rfl rfl
  | some connection =>
      cases hkeys : surroundings.resolveKeys connection.name with
      | error e =>
          simp only [hkeys]
          exact .of_same rfl rfl
      | ok credentials =>
          simp only [hkeys, S3Client.new]
          exact connected_waits app _ _ _

theorem handleServerAutoConnect_waits (endpoint : Str) (noAuth : Bool) :
    app.Waits (handleServerAutoConnect app endpoint noAuth) := by
  unfold handleServerAutoConnect
  split
  next => exact connected_waits app _ _ _
  next => exact .of_same rfl rfl

theorem handleStartServer_waits : app.Waits (handleStartServer surroundings app) := by
  unfold handleStartServer
  split
  next => exact .of_same rfl rfl
  next =>
    split
    next => exact .of_same rfl rfl
    next =>
      cases surroundings.spawnServer with
      | error e => exact .of_same rfl rfl
      | ok _ => exact .of_same rfl rfl

theorem handleAddConnection_waits : app.Waits (handleAddConnection surroundings app) := by
  unfold handleAddConnection
  cases app.newConnection with
  | error e => exact .of_same rfl rfl
  | ok connection =>
      simp only
      split
      next => exact .of_same rfl rfl
      next => exact .of_same rfl rfl

theorem handleEditConnection_waits (name : Str) : app.Waits (handleEditConnection app name) := by
  unfold handleEditConnection
  cases app.connections.find? (·.name = name) with
  | none => exact .of_same rfl rfl
  | some connection => exact .of_same rfl rfl

end Connections

/-! ## Every message -/

section Update

variable (platform : Platform) (surroundings : Surroundings) (app : App)

theorem update_waits (message : Message) :
    app.Waits (app.update platform surroundings message) := by
  cases message with
  | openSync | closeSync =>
      refine .of_flagged rfl fun source hawaits => ?_
      cases source <;> cases hawaits
  | syncSourceConnectionChanged connectionId =>
      exact handleSyncSourceConnectionChanged_waits surroundings app connectionId
  | syncDestinationConnectionChanged connectionId =>
      exact handleSyncDestinationConnectionChanged_waits surroundings app connectionId
  | syncSourceBucketsLoaded result =>
      refine withSync_waits app fun sync source h => ?_
      cases source with
      | true => cases h
      | false => exact h
  | syncDestinationBucketsLoaded result =>
      refine withSync_waits app fun sync source h => ?_
      cases source with
      | true => exact h
      | false => cases h
  | pickSyncSourceLocalPath | pickSyncDestinationLocalPath | removeConnection _
  | newConnNameChanged _ | newConnEndpointChanged _ | newConnRegionChanged _
  | newConnAccessKeyChanged _ | newConnSecretKeyChanged _ | stopServer | serverExited =>
      exact .of_same rfl rfl
  | syncTransferWorkersChanged _ | syncBwlimitChanged _ | syncMultipartCutoffChanged _
  | syncMultipartChunkSizeChanged _ | toggleSyncAdvanced | cancelSyncDeleteConfirm
  | syncDeleteConfirmTextChanged _ => exact withSync_waits app fun _ _ h => h
  | startSyncPlan => exact handleStartSyncPlan_waits surroundings app
  | syncSourceEnumerated result => exact handleSyncSourceEnumerated_waits surroundings app result
  | syncDestinationEnumerated result => exact handleSyncDestinationEnumerated_waits app result
  | syncPlanBuilt result => exact handleSyncPlanBuilt_waits app platform result
  | startSyncCopy => exact handleStartSyncCopy_waits surroundings app
  | startSync => exact handleStartSync_waits surroundings app
  | confirmSyncDeleteRun => exact handleConfirmSyncDeleteRun_waits surroundings app
  | syncCopyStepFinished result => exact handleSyncCopyStepFinished_waits surroundings app result
  | syncDeleteBatchFinished result =>
      exact handleSyncDeleteBatchFinished_waits surroundings app result
  | connectTo name => exact handleConnectTo_waits surroundings app name
  | addConnection => exact handleAddConnection_waits surroundings app
  | editConnection name => exact handleEditConnection_waits app name
  | startServer => exact handleStartServer_waits surroundings app
  | serverAutoConnect endpoint noAuth => exact handleServerAutoConnect_waits app endpoint noAuth
  | openCopyObject | openMoveObject | openRenameObject | openImportFolder | openExportPrefix
  | closeTransferModal | transferDestinationConnectionChanged _
  | transferDestinationBucketChanged _ | transferDestinationKeyChanged _
  | transferDestinationBucketsLoaded _ | startTransfer | transferPrepared _
  | transferStepFinished _ | transferConflictOverwrite | transferConflictSkip
  | transferConflictOverwriteAll | transferConflictSkipAll =>
      exact update_transfer_waits platform surroundings app rfl
  | openBulkDeleteModal => exact handleOpenBulkDeleteModal_waits app
  | closeBulkDeleteModal => exact handleCloseBulkDeleteModal_waits app
  | confirmBulkDelete => exact processNextBulkDeleteStep_waits app
  | bulkDeleteBatchFinished result => exact handleBulkDeleteBatchFinished_waits app result
  | openPrefixDeleteModal keyPrefix => exact handleOpenPrefixDeleteModal_waits app keyPrefix
  | closePrefixDeleteModal => exact handleClosePrefixDeleteModal_waits app
  | prefixDeleteListLoaded result => exact handlePrefixDeleteListLoaded_waits app result
  | confirmPrefixDelete => exact processNextPrefixDeleteBatch_waits app
  | prefixDeleteBatchFinished result => exact handlePrefixDeleteBatchFinished_waits app result
  | openDeleteBucketModal => exact handleOpenDeleteBucketModal_waits app
  | closeDeleteBucketModal => exact handleCloseDeleteBucketModal_waits app
  | bucketDeletePreviewLoaded bucket result =>
      exact handleBucketDeletePreviewLoaded_waits app bucket result
  | bucketDeleteConfirmNameChanged value =>
      exact handleBucketDeleteConfirmNameChanged_waits app value
  | confirmDeleteBucket => exact processNextBucketDeleteStep_waits app
  | bucketDeleteStepFinished result => exact handleBucketDeleteStepFinished_waits app result
  | _ => exact editSync_waits app fun _ _ => rfl

theorem syncBuckets_ends (source : Bool) (result : Except String (List Str)) :
    app.Ends (if source then handleSyncSourceBucketsLoaded app result
      else handleSyncDestinationBucketsLoaded app result) (.syncBuckets source) := by
  intro hawaits
  cases hsync : app.sync <;> cases source <;>
    simp [handleSyncSourceBucketsLoaded, handleSyncDestinationBucketsLoaded, App.withSync,
      App.awaits, SyncState.loadsBuckets, hsync] at hawaits

/-- Every task of the application ends what its answer is awaited for. -/
theorem message_ends {task : AppTask} {awaited : AppAwaited} (h : task.answers awaited = true)
    {replies : Replies} {message : Message} (hmessage : task.message replies = some message) :
    app.Ends (app.update platform surroundings message) awaited := by
  cases task with
  | fetchBuckets _ | fetchObjects _ _ _ => cases hmessage
  | fetchSyncSourceBuckets client =>
      cases hmessage
      cases awaited with
      | syncBuckets source =>
          obtain rfl : source = true := h
          exact syncBuckets_ends app true _
      | _ => cases h
  | fetchSyncDestinationBuckets client =>
      cases hmessage
      cases awaited with
      | syncBuckets source =>
          obtain rfl : source = false := by simpa [AppTask.answers] using h
          exact syncBuckets_ends app false _
      | _ => cases h
  | fetchTransferBuckets client =>
      cases hmessage
      cases awaited with
      | transferBuckets => exact transferBuckets_ends app _
      | _ => cases h
  | prepareTransfer _ | prepareImport _ _ _ | prepareExport _ _ _ _ =>
      cases hmessage
      cases awaited with
      | transferItems => exact transferItems_ends platform surroundings app _
      | _ => cases h
  | runTransfer _ _ _ _ _ | refuseTransfer _ =>
      cases hmessage
      cases awaited with
      | transferStep => exact transferStep_ends platform surroundings app _
      | _ => cases h
  | deleteBulk _ _ _ =>
      cases hmessage
      cases awaited with
      | bulkDelete => exact bulkDelete_ends app _
      | _ => cases h
  | listPrefix _ _ _ =>
      cases hmessage
      cases awaited with
      | prefixListing => exact prefixListing_ends app _
      | _ => cases h
  | deletePrefix _ _ _ =>
      cases hmessage
      cases awaited with
      | prefixDelete => exact prefixDelete_ends app _
      | _ => cases h
  | previewBucket _ bucket =>
      cases hmessage
      cases awaited with
      | bucketPreview previewed =>
          obtain rfl : bucket = previewed := by simpa [AppTask.answers] using h
          exact bucketPreview_ends app bucket _
      | _ => cases h
  | _ => cases awaited <;> cases h

end Update

end AbixioUi
