import AbixioUi.App.Frames

/-! # What a message does to the sync screen

A message plans, or it runs, or it edits. Edits drop all work or keep all of it, and
what belongs to a run keeps the plan under review.
-/

namespace AbixioUi

open Foundation

/-! ## Comparing screens -/

/-- Two screens with the same plan, made under the same settings. -/
structure SyncState.SamePlan (before after : SyncState) : Prop where
  config_eq : after.planConfig = before.planConfig
  plan_eq : after.plan = before.plan
  runPlan_eq : after.runPlan = before.runPlan
  sourceSnapshot_eq : after.sourceSnapshot = before.sourceSnapshot

/-- Two screens that show the same plan for review: its guardrails and scan counts too. -/
structure SyncState.SameReview (before after : SyncState) : Prop
    extends SyncState.SamePlan before after where
  guardrails_eq : after.deleteGuardrails = before.deleteGuardrails
  sourceScanned_eq : after.telemetry.sourceScanned = before.telemetry.sourceScanned
  destinationScanned_eq :
    after.telemetry.destinationScanned = before.telemetry.destinationScanned

/-- Two screens with the same plan and the same run. -/
structure SyncState.SameWork (before after : SyncState) : Prop
    extends SyncState.SameReview before after where
  execution_eq : after.execution = before.execution
  deleteConfirm_eq : after.deleteConfirm = before.deleteConfirm

/-- A screen without a plan. -/
structure SyncState.PlanFree (sync : SyncState) : Prop where
  plan_eq : sync.plan = none
  runPlan_eq : sync.runPlan = none
  sourceSnapshot_eq : sync.sourceSnapshot = none

/-- A screen with neither a plan nor a run. -/
structure SyncState.Idle (sync : SyncState) : Prop extends SyncState.PlanFree sync where
  execution_eq : sync.execution = none
  deleteConfirm_eq : sync.deleteConfirm = none

theorem SyncState.SameReview.refl (sync : SyncState) : sync.SameReview sync :=
  ⟨⟨rfl, rfl, rfl, rfl⟩, rfl, rfl, rfl⟩

theorem SyncState.SameReview.trans {a b c : SyncState} (h : a.SameReview b)
    (h' : b.SameReview c) : a.SameReview c :=
  ⟨⟨h'.config_eq.trans h.config_eq, h'.plan_eq.trans h.plan_eq,
      h'.runPlan_eq.trans h.runPlan_eq, h'.sourceSnapshot_eq.trans h.sourceSnapshot_eq⟩,
    h'.guardrails_eq.trans h.guardrails_eq, h'.sourceScanned_eq.trans h.sourceScanned_eq,
    h'.destinationScanned_eq.trans h.destinationScanned_eq⟩

theorem SyncState.SameWork.refl (sync : SyncState) : sync.SameWork sync :=
  ⟨.refl sync, rfl, rfl⟩

theorem clearSyncPlan_idle (sync : SyncState) : (clearSyncPlan sync).Idle :=
  ⟨⟨rfl, rfl, rfl⟩, rfl, rfl⟩

theorem planningStarted_idle (sync : SyncState) : sync.planningStarted.Idle :=
  ⟨⟨rfl, rfl, rfl⟩, rfl, rfl⟩

/-! ## Edits -/

/-- A message that neither plans nor runs: an edit of the settings drops all work,
anything else keeps it. -/
structure KeepsOrDrops (app : App) (result : App × List AppTask) : Prop where
  sync : ∀ after, result.1.sync = some after →
    after.Idle ∨ ∃ before, app.sync = some before ∧ before.SameWork after
  tasks : ∀ task ∈ result.2, task.syncs = false

theorem LeavesSync.keepsOrDrops {app : App} {result : App × List AppTask}
    (h : LeavesSync app result) : KeepsOrDrops app result where
  sync := fun after hafter => .inr ⟨after, h.sync_eq ▸ hafter, .refl after⟩
  tasks := h.tasks

section Edits

variable {app : App}

theorem editSync_keepsOrDrops (edit : SyncState → SyncState) {tasks : List AppTask}
    (htasks : ∀ task ∈ tasks, task.syncs = false) :
    KeepsOrDrops app ((app.editSync edit).1, tasks) where
  sync := by
    intro after hafter
    obtain ⟨sync, -, rfl⟩ := Option.map_eq_some_iff.mp hafter
    exact .inl (clearSyncPlan_idle _)
  tasks := htasks

theorem withSync_keepsOrDrops {change : SyncState → SyncState}
    (hchange : ∀ sync : SyncState, sync.SameWork (change sync)) :
    KeepsOrDrops app (app.withSync change) where
  sync := by
    intro after hafter
    obtain ⟨sync, hsync, rfl⟩ := Option.map_eq_some_iff.mp hafter
    exact .inr ⟨sync, hsync, hchange sync⟩
  tasks := by simp [App.withSync]

end Edits

/-- The messages that plan, ask for a confirmation, or run. -/
def Message.steersSync : Message → Bool
  | .startSyncPlan | .syncSourceEnumerated _ | .syncDestinationEnumerated _ | .syncPlanBuilt _
  | .startSyncCopy | .startSync | .cancelSyncDeleteConfirm | .syncDeleteConfirmTextChanged _
  | .confirmSyncDeleteRun | .syncCopyStepFinished _ | .syncDeleteBatchFinished _ => true
  | _ => false

/-- Every other message keeps the work of the sync screen or drops all of it. -/
theorem update_keepsOrDrops (platform : Platform) (surroundings : Surroundings) (app : App)
    {message : Message} (h : message.steersSync = false) :
    KeepsOrDrops app (app.update platform surroundings message) := by
  have hnone : ∀ task ∈ ([] : List AppTask), task.syncs = false := by simp
  cases message with
  | startSyncPlan | syncSourceEnumerated _ | syncDestinationEnumerated _ | syncPlanBuilt _
  | startSyncCopy | startSync | cancelSyncDeleteConfirm | syncDeleteConfirmTextChanged _
  | confirmSyncDeleteRun | syncCopyStepFinished _ | syncDeleteBatchFinished _ => cases h
  | openSync =>
      refine ⟨fun after hafter => .inl ?_, hnone⟩
      obtain rfl : _ = after := Option.some.inj hafter
      exact ⟨⟨rfl, rfl, rfl⟩, rfl, rfl⟩
  | closeSync =>
      refine ⟨fun after hafter => ?_, hnone⟩
      cases hafter
  | syncModeChanged _ | syncPresetChanged _ | syncSourceKindChanged _
  | syncDestinationKindChanged _ | syncSourceBucketChanged _ | syncDestinationBucketChanged _
  | syncSourcePrefixChanged _ | syncDestinationPrefixChanged _ | syncSourceLocalPathPicked _
  | syncDestinationLocalPathPicked _ | syncCompareModeChanged _ | syncListModeChanged _
  | syncListWorkersChanged _ | syncCompareWorkersChanged _ | syncFastListToggled _
  | syncPreferServerModtimeToggled _ | syncMaxPlannerItemsChanged _ | syncOverwriteChanged _
  | syncDeleteExtrasChanged _ | syncDestinationNewerPolicyChanged _ | syncDeletePhaseChanged _
  | syncIgnoreErrorsChanged _ | syncDeleteWorkersChanged _ | syncMaxDeleteCountChanged _
  | syncMaxDeleteBytesChanged _ | syncIncludePatternsChanged _ | syncExcludePatternsChanged _
  | syncNewerThanChanged _ | syncOlderThanChanged _ | syncMinSizeChanged _
  | syncMaxSizeChanged _ => exact editSync_keepsOrDrops _ hnone
  | syncSourceConnectionChanged _ =>
      exact editSync_keepsOrDrops _ (by simp [App.fetchSyncSourceBuckets, AppTask.syncs])
  | syncDestinationConnectionChanged _ =>
      exact editSync_keepsOrDrops _ (by simp [App.fetchSyncDestinationBuckets, AppTask.syncs])
  | syncSourceBucketsLoaded _ | syncDestinationBucketsLoaded _ | syncTransferWorkersChanged _
  | syncBwlimitChanged _ | syncMultipartCutoffChanged _ | syncMultipartChunkSizeChanged _
  | toggleSyncAdvanced =>
      exact withSync_keepsOrDrops fun sync => ⟨⟨⟨rfl, rfl, rfl, rfl⟩, rfl, rfl, rfl⟩, rfl, rfl⟩
  | pickSyncSourceLocalPath | pickSyncDestinationLocalPath =>
      exact LeavesSync.keepsOrDrops ⟨rfl, by
        simp [App.update, handlePickSyncSourceLocalPath, handlePickSyncDestinationLocalPath,
          AppTask.syncs]⟩
  | connectTo name => exact (handleConnectTo_leavesSync surroundings app name).keepsOrDrops
  | addConnection => exact (handleAddConnection_leavesSync surroundings app).keepsOrDrops
  | editConnection name => exact (handleEditConnection_leavesSync app name).keepsOrDrops
  | removeConnection _ | newConnNameChanged _ | newConnEndpointChanged _ | newConnRegionChanged _
  | newConnAccessKeyChanged _ | newConnSecretKeyChanged _ | stopServer | serverExited =>
      exact LeavesSync.keepsOrDrops ⟨rfl, hnone⟩
  | startServer => exact (handleStartServer_leavesSync surroundings app).keepsOrDrops
  | serverAutoConnect endpoint noAuth =>
      exact (handleServerAutoConnect_leavesSync app endpoint noAuth).keepsOrDrops
  | _ => exact (update_beside platform surroundings app rfl).toLeavesSync.keepsOrDrops

/-! ## Runs -/

/-- What a message of a run does: nothing, a note on the screen, or a dispatch of a run
that goes on or of one that starts with the reviewed run plan. -/
inductive RunOutcome (surroundings : Surroundings) (app : App) : App × List AppTask → Prop
  | unchanged : RunOutcome surroundings app (app, [])
  | noted {sync after : SyncState} (hsync : app.sync = some sync)
      (hreview : sync.SameReview after) (hexecution : after.execution = sync.execution) :
      RunOutcome surroundings app ({ app with sync := some after }, [])
  | dispatched {sync started : SyncState} (error : Option String) (hsync : app.sync = some sync)
      (hreview : sync.SameReview started)
      (hrun : ∀ execution, started.execution = some execution →
        (∃ held, sync.execution = some held ∧ execution.runPlan = held.runPlan) ∨
          sync.runPlan = some execution.runPlan) :
      RunOutcome surroundings app
        ({ app with error := error }.dispatched surroundings (dispatchSyncExecution started))

section Runs

theorem dispatchSyncExecution_sameReview (sync : SyncState) :
    sync.SameReview (dispatchSyncExecution sync).1 := by
  obtain ⟨execution, stage, h⟩ := dispatchSyncExecution_frame sync
  rw [h]
  exact ⟨⟨rfl, rfl, rfl, rfl⟩, rfl, rfl, rfl⟩

/-- A started run executes the run plan on the screen. -/
theorem startCopyExecution_spec (ready : SyncState) :
    ready.SameReview (startCopyExecution ready) ∧
      ∀ execution, (startCopyExecution ready).execution = some execution →
        (∃ held, ready.execution = some held ∧ execution.runPlan = held.runPlan) ∨
          ready.runPlan = some execution.runPlan := by
  unfold startCopyExecution
  cases h : ready.runPlan with
  | none => exact ⟨.refl ready, fun execution hsome => .inl ⟨execution, hsome, rfl⟩⟩
  | some runPlan =>
      refine ⟨⟨⟨rfl, rfl, h.symm, rfl⟩, rfl, rfl, rfl⟩, fun execution hsome => .inr ?_⟩
      obtain rfl := Option.some.inj hsome
      rfl

theorem startSyncExecution_spec (ready : SyncState) :
    ready.SameReview (startSyncExecution ready) ∧
      ∀ execution, (startSyncExecution ready).execution = some execution →
        (∃ held, ready.execution = some held ∧ execution.runPlan = held.runPlan) ∨
          ready.runPlan = some execution.runPlan := by
  unfold startSyncExecution
  cases h : ready.runPlan with
  | none => exact ⟨.refl ready, fun execution hsome => .inl ⟨execution, hsome, rfl⟩⟩
  | some runPlan =>
      refine ⟨⟨⟨rfl, rfl, h.symm, rfl⟩, rfl, rfl, rfl⟩, fun execution hsome => .inr ?_⟩
      obtain rfl := Option.some.inj hsome
      rfl

/-- Starting a run first clears the error and the dialog. -/
theorem startSyncExecution_ready_sameReview (sync : SyncState) :
    sync.SameReview
      (startSyncExecution { sync with error := none, deleteConfirm := none }) := by
  have hready : sync.SameReview { sync with error := none, deleteConfirm := none } :=
    ⟨⟨rfl, rfl, rfl, rfl⟩, rfl, rfl, rfl⟩
  exact hready.trans (startSyncExecution_spec _).1

variable (surroundings : Surroundings) (app : App)

theorem handleStartSyncCopy_outcome :
    RunOutcome surroundings app (handleStartSyncCopy surroundings app) := by
  unfold handleStartSyncCopy
  cases hsync : app.sync with
  | none => exact .unchanged
  | some sync =>
      simp only
      split
      next => exact .unchanged
      next =>
        split
        next => exact .noted hsync ⟨⟨rfl, rfl, rfl, rfl⟩, rfl, rfl, rfl⟩ rfl
        next =>
          split
          next => exact .noted hsync ⟨⟨rfl, rfl, rfl, rfl⟩, rfl, rfl, rfl⟩ rfl
          next =>
            obtain ⟨hreview, hrun⟩ := startCopyExecution_spec sync
            exact .dispatched app.error hsync hreview hrun

theorem handleStartSync_outcome :
    RunOutcome surroundings app (handleStartSync surroundings app) := by
  unfold handleStartSync
  cases hsync : app.sync with
  | none => exact .unchanged
  | some sync =>
      simp only
      split
      next => exact .unchanged
      next =>
        split
        next => exact .noted hsync ⟨⟨rfl, rfl, rfl, rfl⟩, rfl, rfl, rfl⟩ rfl
        next =>
          split
          next =>
            exact .dispatched app.error hsync (startSyncExecution_ready_sameReview sync)
              (startSyncExecution_spec _).2
          next => exact .noted hsync ⟨⟨rfl, rfl, rfl, rfl⟩, rfl, rfl, rfl⟩ rfl

theorem handleConfirmSyncDeleteRun_outcome :
    RunOutcome surroundings app (handleConfirmSyncDeleteRun surroundings app) := by
  unfold handleConfirmSyncDeleteRun
  cases hsync : app.sync with
  | none => exact .unchanged
  | some sync =>
      simp only
      split
      next => exact .unchanged
      next =>
        split
        next => exact .noted hsync ⟨⟨rfl, rfl, rfl, rfl⟩, rfl, rfl, rfl⟩ rfl
        next =>
          exact .dispatched app.error hsync (startSyncExecution_ready_sameReview sync)
            (startSyncExecution_spec _).2

theorem withSync_outcome {change : SyncState → SyncState}
    (hreview : ∀ sync : SyncState, sync.SameReview (change sync))
    (hexecution : ∀ sync : SyncState, (change sync).execution = sync.execution) :
    RunOutcome surroundings app (app.withSync change) := by
  unfold App.withSync
  cases hsync : app.sync with
  | none =>
      have hsame : { app with sync := Option.map change none } = app := by
        cases app
        simpa using hsync.symm
      rw [hsame]
      exact .unchanged
  | some sync => exact .noted hsync (hreview sync) (hexecution sync)

theorem handleSyncCopyStepFinished_outcome (result : Except String SyncRunItem) :
    RunOutcome surroundings app (handleSyncCopyStepFinished surroundings app result) := by
  unfold handleSyncCopyStepFinished
  cases hsync : app.sync with
  | none => exact .unchanged
  | some sync =>
      cases hexecution : sync.execution with
      | none =>
          simp only [hexecution]
          exact .unchanged
      | some execution =>
          simp only [hexecution, copyStepFinished]
          refine .dispatched _ hsync ?_ fun next hsome => .inl ⟨execution, hexecution, ?_⟩
          · cases result <;> exact ⟨⟨rfl, rfl, rfl, rfl⟩, rfl, rfl, rfl⟩
          · obtain rfl := Option.some.inj hsome
            exact (resultHandled_frame execution _ (.copyStepFinished result)).1

theorem handleSyncDeleteBatchFinished_outcome
    (result : Except String SyncDeleteBatchResult) :
    RunOutcome surroundings app (handleSyncDeleteBatchFinished surroundings app result) := by
  unfold handleSyncDeleteBatchFinished
  cases hsync : app.sync with
  | none => exact .unchanged
  | some sync =>
      cases hexecution : sync.execution with
      | none =>
          simp only [hexecution]
          exact .unchanged
      | some execution =>
          simp only [hexecution, deleteBatchFinished]
          refine .dispatched _ hsync ⟨⟨rfl, rfl, rfl, rfl⟩, rfl, rfl, rfl⟩ fun next hsome =>
            .inl ⟨execution, hexecution, ?_⟩
          obtain rfl := Option.some.inj hsome
          exact (resultHandled_frame execution _ (.deleteBatchFinished result)).1

end Runs

/-- The messages that plan. -/
def Message.plans : Message → Bool
  | .startSyncPlan | .syncSourceEnumerated _ | .syncDestinationEnumerated _
  | .syncPlanBuilt _ => true
  | _ => false

theorem update_outcome (platform : Platform) (surroundings : Surroundings) (app : App)
    {message : Message} (hsteers : message.steersSync = true) (hplans : message.plans = false) :
    RunOutcome surroundings app (app.update platform surroundings message) := by
  cases message with
  | startSyncCopy => exact handleStartSyncCopy_outcome surroundings app
  | startSync => exact handleStartSync_outcome surroundings app
  | cancelSyncDeleteConfirm | syncDeleteConfirmTextChanged _ =>
      exact withSync_outcome surroundings app
        (fun sync => ⟨⟨rfl, rfl, rfl, rfl⟩, rfl, rfl, rfl⟩) fun sync => rfl
  | confirmSyncDeleteRun => exact handleConfirmSyncDeleteRun_outcome surroundings app
  | syncCopyStepFinished result => exact handleSyncCopyStepFinished_outcome surroundings app result
  | syncDeleteBatchFinished result =>
      exact handleSyncDeleteBatchFinished_outcome surroundings app result
  | startSyncPlan | syncSourceEnumerated _ | syncDestinationEnumerated _ | syncPlanBuilt _ =>
      cases hplans
  | _ => cases hsteers

/-- The screen stays under the same review and only steps of the run are started. -/
structure KeepsReview (app : App) (result : App × List AppTask) : Prop where
  sync : ∀ after, result.1.sync = some after →
    ∃ before, app.sync = some before ∧ before.SameReview after
  tasks : ∀ task ∈ result.2, ∃ spec clients, task = .runSync spec clients

/-- Starting, confirming and stepping a run leaves the reviewed plan alone. -/
theorem RunOutcome.keepsReview {surroundings : Surroundings} {app : App}
    {result : App × List AppTask} (h : RunOutcome surroundings app result) :
    KeepsReview app result := by
  cases h with
  | unchanged => exact ⟨fun after hafter => ⟨after, hafter, .refl after⟩, by simp⟩
  | @noted sync after hsync hreview _ =>
      refine ⟨fun after' hafter => ?_, by simp⟩
      obtain rfl : after = after' := Option.some.inj hafter
      exact ⟨sync, hsync, hreview⟩
  | @dispatched sync started error hsync hreview _ =>
      refine ⟨fun after hafter => ?_, fun task htask => ?_⟩
      · obtain rfl : _ = after := Option.some.inj hafter
        exact ⟨sync, hsync, hreview.trans (dispatchSyncExecution_sameReview started)⟩
      · obtain ⟨spec, -, rfl⟩ := List.mem_map.mp htask
        exact ⟨spec, _, rfl⟩

/-! ## Planning -/

/-- The tasks of the first two planning stages. -/
def AppTask.enumerates : AppTask → Bool
  | .enumerateSyncSource _ _ | .enumerateSyncDestination _ _ => true
  | _ => false

theorem AppTask.not_runSync_of_enumerates {task : AppTask} (h : task.enumerates = true)
    (spec : PendingSyncTask) (clients : Except String (Option S3Client × Option S3Client)) :
    task ≠ .runSync spec clients := by
  rintro rfl
  cases h

theorem AppTask.not_runSync_of_syncs {task : AppTask} (h : task.syncs = false)
    (spec : PendingSyncTask) (clients : Except String (Option S3Client × Option S3Client)) :
    task ≠ .runSync spec clients := by
  rintro rfl
  cases h

theorem browse_not_runSync (app : App) (browsing : Browsing) :
    ∀ task ∈ (app.browse browsing).2, ∀ spec clients, task ≠ .runSync spec clients :=
  fun task htask =>
    AppTask.not_runSync_of_syncs ((browse_beside calm app browsing).tasks task htask)

theorem planningFailed_sameWork (sync : SyncState) (error : String) :
    sync.SameWork (sync.planningFailed error) :=
  ⟨⟨⟨rfl, rfl, rfl, rfl⟩, rfl, rfl, rfl⟩, rfl, rfl⟩

section Planning

variable (surroundings : Surroundings) (app : App)

theorem enumerateTask_enumerates {params : EndpointParams} {source : Bool} {task : AppTask}
    (h : enumerateTask surroundings app params source = .ok task) : task.enumerates = true := by
  unfold enumerateTask at h
  have henumerates : ∀ client, ((if source = true then AppTask.enumerateSyncSource params
      else AppTask.enumerateSyncDestination params) client).enumerates = true := by
    cases source <;> exact fun _ => rfl
  cases hkind : params.kind with
  | «local» =>
      cases hpath : params.localPath with
      | none => simp [hkind, hpath] at h
      | some path =>
          simp only [hkind, hpath, Except.ok.injEq] at h
          exact h ▸ henumerates none
  | s3 =>
      cases hclient : app.makeClientForConnection surroundings params.connectionId with
      | error e => simp [hkind, hclient, bind, Except.bind] at h
      | ok client =>
          simp only [hkind, hclient, bind, Except.bind, pure, Except.pure, Except.ok.injEq] at h
          exact h ▸ henumerates (some client)

/-- A stage that starts, or fails to start, keeps the work of the screen. -/
theorem startEnumeration_spec (sync : SyncState) (source : Bool) :
    ∃ after, (app.startEnumeration surroundings sync source).1.sync = some after ∧
      sync.SameWork after ∧
      ∀ task ∈ (app.startEnumeration surroundings sync source).2, task.enumerates = true := by
  unfold App.startEnumeration
  cases h : enumerateTask surroundings app (syncEndpointParams sync source) source with
  | error e => exact ⟨_, rfl, planningFailed_sameWork sync e, by simp⟩
  | ok task =>
      refine ⟨sync, rfl, .refl sync, ?_⟩
      simpa using enumerateTask_enumerates surroundings app h

theorem SyncState.Idle.same {before after : SyncState} (h : before.Idle)
    (hsame : before.SameWork after) : after.Idle :=
  ⟨⟨hsame.plan_eq.trans h.plan_eq, hsame.runPlan_eq.trans h.runPlan_eq,
      hsame.sourceSnapshot_eq.trans h.sourceSnapshot_eq⟩,
    hsame.execution_eq.trans h.execution_eq, hsame.deleteConfirm_eq.trans h.deleteConfirm_eq⟩

/-- Planning starts from a screen without work. -/
theorem handleStartSyncPlan_spec :
    (∀ after, (handleStartSyncPlan surroundings app).1.sync = some after → after.Idle) ∧
      ∀ task ∈ (handleStartSyncPlan surroundings app).2, task.enumerates = true := by
  unfold handleStartSyncPlan
  cases hsync : app.sync with
  | none => exact ⟨fun after hafter => by simp [hsync] at hafter, by simp⟩
  | some sync =>
      have hidle := planningStarted_idle sync
      simp only
      split
      next error _ =>
        refine ⟨fun after hafter => ?_, by simp⟩
        obtain rfl : _ = after := Option.some.inj hafter
        exact hidle.same (planningFailed_sameWork _ error)
      next =>
        obtain ⟨after, hafter, hsame, htasks⟩ :=
          startEnumeration_spec surroundings app sync.planningStarted true
        refine ⟨fun after' hafter' => ?_, htasks⟩
        obtain rfl : after = after' := Option.some.inj (hafter.symm.trans hafter')
        exact hidle.same hsame

/-- A source listing is kept on the screen and the next stage starts. -/
theorem handleSyncSourceEnumerated_spec {sync : SyncState} (hsync : app.sync = some sync)
    (objects : List SyncObject) :
    ∃ telemetry after,
      (handleSyncSourceEnumerated surroundings app (.ok objects)).1.sync = some after ∧
      SyncState.SameWork
        { sync with telemetry := telemetry, sourceSnapshot := some objects } after ∧
      ∀ task ∈ (handleSyncSourceEnumerated surroundings app (.ok objects)).2,
        task.enumerates = true := by
  unfold handleSyncSourceEnumerated
  simp only [hsync]
  obtain ⟨after, hafter, hsame, htasks⟩ := startEnumeration_spec surroundings app
    { sync with
      telemetry :=
        { sync.telemetry with
          sourceScanned := objects.length
          stage := "Enumerating destination" }
      sourceSnapshot := some objects } false
  exact ⟨_, after, hafter, hsame, htasks⟩

/-- A destination listing asks for a plan of the held source listing, under the held
settings; a failed one only reports. -/
theorem handleSyncDestinationEnumerated_spec {sync : SyncState} (hsync : app.sync = some sync)
    (result : Except String (List SyncObject)) :
    ∃ telemetry snapshot after,
      (handleSyncDestinationEnumerated app result).1.sync = some after ∧
      SyncState.SameWork
        { sync with telemetry := telemetry, destinationSnapshot := snapshot } after ∧
      (∀ error, result = .error error → telemetry = sync.telemetry) ∧
      ∀ task ∈ (handleSyncDestinationEnumerated app result).2,
        ∃ objects, result = .ok objects ∧
          task = .buildSyncPlan (sync.sourceSnapshot.getD []) objects sync.mode sync.policy
            sync.tuning.compareMode := by
  unfold handleSyncDestinationEnumerated
  simp only [hsync]
  cases result with
  | error e =>
      exact ⟨sync.telemetry, sync.destinationSnapshot, _, rfl, planningFailed_sameWork sync e,
        fun _ _ => rfl, by simp⟩
  | ok objects =>
      simp only
      split
      next error _ => exact ⟨_, _, _, rfl, planningFailed_sameWork _ error, by simp, by simp⟩
      next =>
        split
        next => exact ⟨_, _, _, rfl, planningFailed_sameWork _ _, by simp, by simp⟩
        next => exact ⟨_, _, _, rfl, .refl _, by simp, by simp⟩

theorem prepareSyncRunPlan_planConfig (platform : Platform) {sync after : SyncState}
    (h : after.planConfig = sync.planConfig) (plan : SyncPlan) :
    prepareSyncRunPlan platform after plan = prepareSyncRunPlan platform sync plan := by
  refine prepareSyncRunPlan_congr (fun source => ?_) plan
  cases source with
  | true => exact congrArg PlanConfig.source h
  | false => exact congrArg PlanConfig.destination h

/-- The screen gets the plan, and a run plan that is prepared from it. -/
theorem withPlan_spec (platform : Platform) (sync : SyncState) (plan : SyncPlan) :
    ∃ runPlan error, sync.withPlan platform plan =
        { sync with
          plan := some plan
          runPlan := runPlan
          error := error
          telemetry := { sync.telemetry with compared := plan.items.length } } ∧
      ∀ prepared, runPlan = some prepared →
        prepareSyncRunPlan platform sync plan = .ok prepared := by
  have hprepare : ∀ runPlan : SyncRunPlan,
      prepareSyncRunPlan platform
          { sync with telemetry := { sync.telemetry with compared := plan.items.length } } plan =
        .ok runPlan →
      prepareSyncRunPlan platform sync plan = .ok runPlan := by
    intro runPlan h
    rw [← h]
    exact (prepareSyncRunPlan_planConfig platform rfl plan).symm
  unfold SyncState.withPlan
  simp only
  split
  case h_1 => exact ⟨none, sync.error, rfl, by simp⟩
  case h_2 | h_3 =>
    split
    next runPlan hprepared =>
      refine ⟨some runPlan, sync.error, rfl, fun prepared h => ?_⟩
      obtain rfl : runPlan = prepared := Option.some.inj h
      exact hprepare runPlan hprepared
    next error _ => exact ⟨none, some error, rfl, by simp⟩

/-- The screen after a plan arrived. -/
theorem handleSyncPlanBuilt_spec (platform : Platform) {sync : SyncState}
    (hsync : app.sync = some sync) (plan : SyncPlan) :
    ∃ runPlan error telemetry, (handleSyncPlanBuilt platform app (.ok plan)).1.sync = some
        { sync with
          running := false
          plan := some plan
          runPlan := runPlan
          error := error
          telemetry := telemetry } ∧
      telemetry.sourceScanned = sync.telemetry.sourceScanned ∧
      telemetry.destinationScanned = sync.telemetry.destinationScanned ∧
      ∀ prepared, runPlan = some prepared →
        prepareSyncRunPlan platform sync plan = .ok prepared := by
  obtain ⟨runPlan, error, hwith, hprepared⟩ := withPlan_spec platform
    { sync with running := false, telemetry := { sync.telemetry with stage := "Idle" } } plan
  refine ⟨runPlan, error,
    { sync.telemetry with stage := "Idle", compared := plan.items.length }, ?_, rfl, rfl,
    fun prepared hsome => ?_⟩
  · simp only [handleSyncPlanBuilt, App.withSync, hsync, Option.map_some]
    exact congrArg some hwith
  · rw [← hprepared prepared hsome]
    exact prepareSyncRunPlan_planConfig platform rfl plan

theorem handleSyncPlanBuilt_tasks (platform : Platform) (result : Except String SyncPlan) :
    (handleSyncPlanBuilt platform app result).2 = [] := rfl

end Planning

end AbixioUi
