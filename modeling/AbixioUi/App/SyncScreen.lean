import AbixioUi.App.State
import AbixioUi.Sync.Planner

/-! # The sync screen

Editing the configuration drops the plan and everything made from it, except for
the settings that only tune a run. Planning enumerates the source, then the
destination, then compares; each stage reads the configuration again when the
result of the stage before arrives.
-/

namespace AbixioUi

open Foundation

/-! ## Opening and editing -/

/-- Change the screen, when it is open. -/
def App.withSync (app : App) (change : SyncState → SyncState) : App × List AppTask :=
  ({ app with sync := app.sync.map change }, [])

/-- An edit of the configuration invalidates the plan. -/
def App.editSync (app : App) (edit : SyncState → SyncState) : App × List AppTask :=
  app.withSync fun sync => clearSyncPlan (edit sync)

def handleOpenSync (app : App) : App × List AppTask :=
  ({ app with
     sync := some
       { SyncState.new app.currentConnectionId with
         sourceBuckets := app.buckets
         destinationBuckets := app.buckets } }, [])

def handleCloseSync (app : App) : App × List AppTask := ({ app with sync := none }, [])

def handleSyncModeChanged (app : App) (mode : SyncMode) : App × List AppTask :=
  app.editSync fun sync => { sync with mode := mode }

def handleSyncPresetChanged (app : App) (preset : SyncPreset) : App × List AppTask :=
  app.editSync fun sync =>
    { sync with
      preset := preset
      policy := if preset = .custom then sync.policy else preset.policy }

def handleSyncSourceKindChanged (app : App) (kind : SyncEndpointKind) : App × List AppTask :=
  app.editSync fun sync => { sync with sourceKind := kind }

def handleSyncDestinationKindChanged (app : App) (kind : SyncEndpointKind) :
    App × List AppTask :=
  app.editSync fun sync => { sync with destinationKind := kind }

def App.fetchSyncSourceBuckets (surroundings : Surroundings) (app : App) (connectionId : Str) :
    List AppTask :=
  [.fetchSyncSourceBuckets (app.makeClientForConnection surroundings connectionId)]

def App.fetchSyncDestinationBuckets (surroundings : Surroundings) (app : App)
    (connectionId : Str) : List AppTask :=
  [.fetchSyncDestinationBuckets (app.makeClientForConnection surroundings connectionId)]

def handleSyncSourceConnectionChanged (surroundings : Surroundings) (app : App)
    (connectionId : Str) : App × List AppTask :=
  let app := (app.editSync fun sync =>
    { sync with
      sourceConnectionId := connectionId
      sourceBucket := []
      sourceBuckets := none
      loadingSourceBuckets := true }).1
  (app, app.fetchSyncSourceBuckets surroundings connectionId)

def handleSyncDestinationConnectionChanged (surroundings : Surroundings) (app : App)
    (connectionId : Str) : App × List AppTask :=
  let app := (app.editSync fun sync =>
    { sync with
      destinationConnectionId := connectionId
      destinationBucket := []
      destinationBuckets := none
      loadingDestinationBuckets := true }).1
  (app, app.fetchSyncDestinationBuckets surroundings connectionId)

def handleSyncSourceBucketChanged (app : App) (bucket : Str) : App × List AppTask :=
  app.editSync fun sync => { sync with sourceBucket := bucket }

def handleSyncDestinationBucketChanged (app : App) (bucket : Str) : App × List AppTask :=
  app.editSync fun sync => { sync with destinationBucket := bucket }

def handleSyncSourcePrefixChanged (app : App) (keyPrefix : Str) : App × List AppTask :=
  app.editSync fun sync => { sync with sourcePrefix := keyPrefix }

def handleSyncDestinationPrefixChanged (app : App) (keyPrefix : Str) : App × List AppTask :=
  app.editSync fun sync => { sync with destinationPrefix := keyPrefix }

def handlePickSyncSourceLocalPath (surroundings : Surroundings) (app : App) :
    App × List AppTask :=
  (app, [.pickSyncSourceLocalPath surroundings.pickFolder])

def handlePickSyncDestinationLocalPath (surroundings : Surroundings) (app : App) :
    App × List AppTask :=
  (app, [.pickSyncDestinationLocalPath surroundings.pickFolder])

def handleSyncSourceLocalPathPicked (app : App) (path : Option PathBuf) : App × List AppTask :=
  app.editSync fun sync => { sync with sourceLocalPath := path }

def handleSyncDestinationLocalPathPicked (app : App) (path : Option PathBuf) :
    App × List AppTask :=
  app.editSync fun sync => { sync with destinationLocalPath := path }

def handleSyncSourceBucketsLoaded (app : App) (result : Except String (List Str)) :
    App × List AppTask :=
  app.withSync fun sync =>
    { sync with loadingSourceBuckets := false, sourceBuckets := some result }

def handleSyncDestinationBucketsLoaded (app : App) (result : Except String (List Str)) :
    App × List AppTask :=
  app.withSync fun sync =>
    { sync with loadingDestinationBuckets := false, destinationBuckets := some result }

/-! ## Tuning -/

def handleSyncCompareModeChanged (app : App) (mode : SyncCompareMode) : App × List AppTask :=
  app.editSync fun sync => { sync with tuning := { sync.tuning with compareMode := mode } }

def handleSyncListModeChanged (app : App) (mode : SyncListMode) : App × List AppTask :=
  app.editSync fun sync => { sync with tuning := { sync.tuning with listMode := mode } }

def handleSyncListWorkersChanged (app : App) (value : Str) : App × List AppTask :=
  app.editSync fun sync => { sync with tuning := { sync.tuning with listWorkersText := value } }

def handleSyncCompareWorkersChanged (app : App) (value : Str) : App × List AppTask :=
  app.editSync fun sync =>
    { sync with tuning := { sync.tuning with compareWorkersText := value } }

def handleSyncTransferWorkersChanged (app : App) (value : Str) : App × List AppTask :=
  app.withSync fun sync =>
    { sync with tuning := { sync.tuning with transferWorkersText := value } }

def handleSyncFastListToggled (app : App) (enabled : Bool) : App × List AppTask :=
  app.editSync fun sync =>
    { sync with tuning := { sync.tuning with fastListEnabled := enabled } }

def handleSyncPreferServerModtimeToggled (app : App) (enabled : Bool) : App × List AppTask :=
  app.editSync fun sync =>
    { sync with tuning := { sync.tuning with preferServerModtime := enabled } }

def handleSyncMaxPlannerItemsChanged (app : App) (value : Str) : App × List AppTask :=
  app.editSync fun sync =>
    { sync with tuning := { sync.tuning with maxPlannerItemsText := value } }

def handleSyncBwlimitChanged (app : App) (value : Str) : App × List AppTask :=
  app.withSync fun sync => { sync with tuning := { sync.tuning with bwlimitText := value } }

def handleSyncMultipartCutoffChanged (app : App) (value : Str) : App × List AppTask :=
  app.withSync fun sync =>
    { sync with tuning := { sync.tuning with multipartCutoffText := value } }

def handleSyncMultipartChunkSizeChanged (app : App) (value : Str) : App × List AppTask :=
  app.withSync fun sync =>
    { sync with tuning := { sync.tuning with multipartChunkSizeText := value } }

/-! ## Policy, guardrails and filters -/

/-- An edit of the policy leaves the preset. -/
def App.editPolicy (app : App) (edit : SyncPolicy → SyncPolicy) : App × List AppTask :=
  app.editSync fun sync => { sync with policy := edit sync.policy, preset := .custom }

def handleSyncOverwriteChanged (app : App) (enabled : Bool) : App × List AppTask :=
  app.editPolicy fun policy => { policy with overwriteChanged := enabled }

def handleSyncDeleteExtrasChanged (app : App) (enabled : Bool) : App × List AppTask :=
  app.editPolicy fun policy => { policy with deleteExtras := enabled }

def handleSyncDestinationNewerPolicyChanged (app : App)
    (destinationNewer : SyncDestinationNewerPolicy) : App × List AppTask :=
  app.editPolicy fun policy => { policy with destinationNewerPolicy := destinationNewer }

def handleSyncDeletePhaseChanged (app : App) (phase : SyncDeletePhase) : App × List AppTask :=
  app.editPolicy fun policy => { policy with deletePhase := phase }

def App.editGuardrails (app : App) (edit : SyncDeleteGuardrails → SyncDeleteGuardrails) :
    App × List AppTask :=
  app.editSync fun sync => { sync with deleteGuardrails := edit sync.deleteGuardrails }

def handleSyncIgnoreErrorsChanged (app : App) (enabled : Bool) : App × List AppTask :=
  app.editGuardrails fun guardrails => { guardrails with ignoreErrors := enabled }

def handleSyncDeleteWorkersChanged (app : App) (value : Str) : App × List AppTask :=
  app.editGuardrails fun guardrails => { guardrails with deleteWorkersText := value }

def handleSyncMaxDeleteCountChanged (app : App) (value : Str) : App × List AppTask :=
  app.editGuardrails fun guardrails => { guardrails with maxDeleteCountText := value }

def handleSyncMaxDeleteBytesChanged (app : App) (value : Str) : App × List AppTask :=
  app.editGuardrails fun guardrails => { guardrails with maxDeleteBytesText := value }

def App.editFilters (app : App) (edit : SyncFilterSet → SyncFilterSet) : App × List AppTask :=
  app.editSync fun sync => { sync with filters := edit sync.filters }

def handleSyncIncludePatternsChanged (app : App) (value : Str) : App × List AppTask :=
  app.editFilters fun filters => { filters with includePatternsText := value }

def handleSyncExcludePatternsChanged (app : App) (value : Str) : App × List AppTask :=
  app.editFilters fun filters => { filters with excludePatternsText := value }

def handleSyncNewerThanChanged (app : App) (value : Str) : App × List AppTask :=
  app.editFilters fun filters => { filters with newerThanText := value }

def handleSyncOlderThanChanged (app : App) (value : Str) : App × List AppTask :=
  app.editFilters fun filters => { filters with olderThanText := value }

def handleSyncMinSizeChanged (app : App) (value : Str) : App × List AppTask :=
  app.editFilters fun filters => { filters with minSizeText := value }

def handleSyncMaxSizeChanged (app : App) (value : Str) : App × List AppTask :=
  app.editFilters fun filters => { filters with maxSizeText := value }

def handleToggleSyncAdvanced (app : App) : App × List AppTask :=
  app.withSync fun sync => { sync with showAdvanced := !sync.showAdvanced }

/-! ## Planning -/

/-- The screen after a planning stage failed. -/
def SyncState.planningFailed (sync : SyncState) (error : String) : SyncState :=
  { sync with
    running := false
    error := some error
    telemetry := { sync.telemetry with stage := "Idle" } }

def enumerateTask (surroundings : Surroundings) (app : App) (params : EndpointParams)
    (source : Bool) : Except String AppTask :=
  let task := if source then AppTask.enumerateSyncSource params
    else AppTask.enumerateSyncDestination params
  match params.kind with
  | .local =>
      match params.localPath with
      | none => .error "Local path is required."
      | some _ => .ok (task none)
  | .s3 => do
      let client ← app.makeClientForConnection surroundings params.connectionId
      return task (some client)

/-- Start a stage of the planning, or report why it cannot start. -/
def App.startEnumeration (surroundings : Surroundings) (app : App) (sync : SyncState)
    (source : Bool) : App × List AppTask :=
  match enumerateTask surroundings app (syncEndpointParams sync source) source with
  | .ok task => ({ app with sync := some sync }, [task])
  | .error error => ({ app with sync := some (sync.planningFailed error) }, [])

/-- The screen at the start of a planning run. -/
def SyncState.planningStarted (sync : SyncState) : SyncState :=
  { sync with
    error := none
    plan := none
    runPlan := none
    deleteConfirm := none
    sourceSnapshot := none
    destinationSnapshot := none
    execution := none
    running := true
    telemetry :=
      { sync.telemetry with
        stage := "Enumerating source"
        sourceScanned := 0
        destinationScanned := 0
        compared := 0
        filtered := 0 } }

def handleStartSyncPlan (surroundings : Surroundings) (app : App) : App × List AppTask :=
  match app.sync with
  | none => (app, [])
  | some sync =>
      let sync := sync.planningStarted
      match validateSyncConfig sync with
      | .error error => ({ app with sync := some (sync.planningFailed error) }, [])
      | .ok () => app.startEnumeration surroundings sync true

def handleSyncSourceEnumerated (surroundings : Surroundings) (app : App)
    (result : Except String (List SyncObject)) : App × List AppTask :=
  match app.sync with
  | none => (app, [])
  | some sync =>
      match result with
      | .ok objects =>
          app.startEnumeration surroundings
            { sync with
              telemetry :=
                { sync.telemetry with
                  sourceScanned := objects.length
                  stage := "Enumerating destination" }
              sourceSnapshot := some objects } false
      | .error error => ({ app with sync := some (sync.planningFailed error) }, [])

def handleSyncDestinationEnumerated (app : App) (result : Except String (List SyncObject)) :
    App × List AppTask :=
  match app.sync with
  | none => (app, [])
  | some sync =>
      match result with
      | .error error => ({ app with sync := some (sync.planningFailed error) }, [])
      | .ok objects =>
          let sync :=
            { sync with
              telemetry :=
                { sync.telemetry with
                  destinationScanned := objects.length
                  stage := "Comparing" }
              destinationSnapshot := some objects }
          let source := sync.sourceSnapshot.getD []
          match parsePlannerLimit sync.tuning.maxPlannerItemsText with
          | .error error => ({ app with sync := some (sync.planningFailed error) }, [])
          | .ok plannerLimit =>
              if source.length + objects.length > plannerLimit then
                ({ app with
                   sync := some (sync.planningFailed ("Planner limit exceeded: " ++
                     toString (source.length + objects.length) ++
                     " source + destination entries is above " ++ toString plannerLimit ++
                     " items.")) }, [])
              else
                ({ app with sync := some sync },
                  [.buildSyncPlan source objects sync.mode sync.policy sync.tuning.compareMode])

/-- The screen with a plan and, outside `Diff`, its run plan. -/
def SyncState.withPlan (platform : Platform) (sync : SyncState) (plan : SyncPlan) : SyncState :=
  let sync := { sync with telemetry := { sync.telemetry with compared := plan.items.length } }
  match sync.mode with
  | .diff => { sync with runPlan := none, plan := some plan }
  | .copy | .sync =>
      match prepareSyncRunPlan platform sync plan with
      | .ok runPlan => { sync with runPlan := some runPlan, plan := some plan }
      | .error error => { sync with error := some error, runPlan := none, plan := some plan }

def handleSyncPlanBuilt (platform : Platform) (app : App) (result : Except String SyncPlan) :
    App × List AppTask :=
  app.withSync fun sync =>
    let sync :=
      { sync with running := false, telemetry := { sync.telemetry with stage := "Idle" } }
    match result with
    | .ok plan => sync.withPlan platform plan
    | .error error => { sync with error := some error }

/-! ## Running -/

/-- The clients of a task, chosen when it is handed out. -/
def PendingSyncTask.clients (surroundings : Surroundings) (app : App) :
    PendingSyncTask → Except String (Option S3Client × Option S3Client)
  | .transfer item => do
      let sourceClient ← app.endpointClient surroundings item.source
      let destinationClient ← app.endpointClient surroundings item.destination
      return (sourceClient, destinationClient)
  | .deleteRemote connectionId _ _ _ _ => do
      let client ← app.makeClientForConnection surroundings connectionId
      return (none, some client)
  | .deleteLocal _ _ _ => .ok (none, none)

/-- The screen and the tasks of a dispatch. -/
def App.dispatched (surroundings : Surroundings) (app : App)
    (result : SyncState × List PendingSyncTask) : App × List AppTask :=
  let app := { app with sync := some result.1 }
  (app, result.2.map fun spec => .runSync spec (spec.clients surroundings app))

def handleStartSyncCopy (surroundings : Surroundings) (app : App) : App × List AppTask :=
  match app.sync with
  | none => (app, [])
  | some sync =>
      if sync.mode ≠ .copy then (app, [])
      else
        match sync.runPlan with
        | none =>
            ({ app with
               sync := some
                 { sync with error := some "Build a copy plan before running copy." } }, [])
        | some runPlan =>
            if runPlan.transfers = [] then
              ({ app with
                 sync := some
                   { sync with
                     error := some "The current copy plan has no actionable items." } }, [])
            else app.dispatched surroundings (dispatchSyncExecution (startCopyExecution sync))

/-- Why a sync run cannot start, or the run plan it would start with. -/
def SyncState.startable (sync : SyncState) : Except String SyncRunPlan :=
  match sync.plan with
  | none => .error "Build a sync plan before running sync."
  | some plan =>
      if plan.summary.conflicts > 0 then
        .error "Resolve sync conflicts in the plan before running sync."
      else
        match sync.runPlan with
        | none => .error "Build a sync plan before running sync."
        | some runPlan =>
            if runPlan.transfers = [] ∧ runPlan.deletes = [] then
              .error "The current sync plan has no actionable items."
            else (validateSyncGuardrails sync runPlan).map fun _ => runPlan

def handleStartSync (surroundings : Surroundings) (app : App) : App × List AppTask :=
  match app.sync with
  | none => (app, [])
  | some sync =>
      if sync.mode ≠ .sync then (app, [])
      else
        match sync.startable with
        | .error error => ({ app with sync := some { sync with error := some error } }, [])
        | .ok runPlan =>
            let sync := { sync with error := none, deleteConfirm := none }
            if runPlan.deletes = [] then
              app.dispatched surroundings (dispatchSyncExecution (startSyncExecution sync))
            else
              ({ app with
                 sync := some
                   { sync with deleteConfirm := some (buildDeleteConfirmState sync runPlan) } },
                [])

def handleCancelSyncDeleteConfirm (app : App) : App × List AppTask :=
  app.withSync fun sync => { sync with deleteConfirm := none }

def handleSyncDeleteConfirmTextChanged (app : App) (value : Str) : App × List AppTask :=
  app.withSync fun sync =>
    { sync with
      deleteConfirm := sync.deleteConfirm.map fun confirm =>
        { confirm with confirmText := value } }

/-- The text the confirmation asks for. -/
def SyncDeleteConfirmState.expected (confirm : SyncDeleteConfirmState) : Str :=
  "delete ".toList ++ natToStr confirm.plannedDeletes

def handleConfirmSyncDeleteRun (surroundings : Surroundings) (app : App) : App × List AppTask :=
  match app.sync with
  | none => (app, [])
  | some sync =>
      match sync.deleteConfirm with
      | none => (app, [])
      | some confirm =>
          if confirm.typedRequired = true ∧ trim confirm.confirmText ≠ confirm.expected then
            ({ app with
               sync := some
                 { sync with
                   error := some ("Type '" ++ String.ofList confirm.expected ++
                     "' to confirm this destructive sync.") } }, [])
          else
            app.dispatched surroundings
              (dispatchSyncExecution
                (startSyncExecution { sync with deleteConfirm := none, error := none }))

def handleSyncCopyStepFinished (surroundings : Surroundings) (app : App)
    (result : Except String SyncRunItem) : App × List AppTask :=
  match app.sync with
  | none => (app, [])
  | some sync =>
      match sync.execution with
      | none => (app, [])
      | some _ =>
          { app with
            error := match result with
              | .ok _ => app.error
              | .error error => some ("Sync transfer failed: " ++ error) }.dispatched surroundings
            (copyStepFinished sync result)

def handleSyncDeleteBatchFinished (surroundings : Surroundings) (app : App)
    (result : Except String SyncDeleteBatchResult) : App × List AppTask :=
  match app.sync with
  | none => (app, [])
  | some sync =>
      match sync.execution with
      | none => (app, [])
      | some _ =>
          { app with
            error := match result with
              | .ok _ => app.error
              | .error error => some ("Sync delete failed: " ++ error) }.dispatched surroundings
            (deleteBatchFinished sync result)

end AbixioUi
