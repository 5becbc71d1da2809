import AbixioUi.Sync.Config

/-! # Executing a run plan

A run walks through phases and keeps two worker pools busy. Every result that
arrives updates the counters and dispatches again: the phase advances as far as it
can, then the free workers are given transfers and delete batches.
-/

namespace AbixioUi

open Foundation

def DELETE_CONFIRM_COUNT_THRESHOLD : Nat := 1000
def DELETE_CONFIRM_BYTES_THRESHOLD : Nat := 10 * 1024 * 1024 * 1024

/-! ## Starting -/

/-- A run before its first dispatch. -/
def SyncExecutionState.start (phase : SyncExecutionPhase) (totalBytes : Nat)
    (runPlan : SyncRunPlan) : SyncExecutionState where
  phase := phase
  runPlan := runPlan
  nextTransferIndex := 0
  nextDeleteIndex := 0
  activeTransfers := 0
  activeDeleteBatches := 0
  completedTransfers := 0
  completedDeletes := 0
  failedTransfers := 0
  failedDeletes := 0
  bytesDone := 0
  totalBytes := totalBytes
  currentItem := none
  currentStrategy := none
  running := true
  summary := none
  hasClientRelay := runPlan.hasClientRelay
  deletePhaseSkipped := false
  transferFailed := false

def startCopyExecution (sync : SyncState) : SyncState :=
  match sync.runPlan with
  | none => sync
  | some runPlan =>
      { sync with
        execution := some (.start .copying runPlan.totalTransferBytes runPlan)
        telemetry := { sync.telemetry with stage := "Copying" } }

def startPhase (deletePhase : SyncDeletePhase) (runPlan : SyncRunPlan) : SyncExecutionPhase :=
  match deletePhase with
  | .before => if runPlan.deletes = [] then .copying else .deletingBefore
  | .during => if runPlan.deletes = [] then .copying else .deletingDuring
  | .after => .copying

def startSyncExecution (sync : SyncState) : SyncState :=
  match sync.runPlan with
  | none => sync
  | some runPlan =>
      { sync with
        execution := some (.start (startPhase sync.policy.deletePhase runPlan)
          (addU64 runPlan.totalTransferBytes runPlan.totalDeleteBytes) runPlan)
        telemetry := { sync.telemetry with stage := "Syncing" } }

/-! ## Confirming deletes -/

/-- Why the typed confirmation is asked for, if it is. -/
def deleteConfirmReason (plannedDeletes plannedDeleteBytes destinationScanned
    sourceScanned : Nat) : Option String :=
  if plannedDeletes > DELETE_CONFIRM_COUNT_THRESHOLD then
    some "Delete count exceeds 1000 objects."
  else if plannedDeleteBytes > DELETE_CONFIRM_BYTES_THRESHOLD then
    some "Delete bytes exceed 10 GiB."
  else if destinationScanned > 0 ∧ plannedDeletes * 4 > destinationScanned then
    some "Deletes are more than 25% of the scanned destination."
  else if sourceScanned = 0 ∧ plannedDeletes > 0 then
    some "The source scan is empty while deletes are planned."
  else none

def buildDeleteConfirmState (sync : SyncState) (runPlan : SyncRunPlan) :
    SyncDeleteConfirmState :=
  let thresholdReason := deleteConfirmReason runPlan.deletes.length runPlan.totalDeleteBytes
    sync.telemetry.destinationScanned sync.telemetry.sourceScanned
  { plannedDeletes := runPlan.deletes.length
    plannedDeleteBytes := runPlan.totalDeleteBytes
    typedRequired := thresholdReason.isSome
    thresholdReason := thresholdReason
    confirmText := [] }

def finalSyncSummary (execution : SyncExecutionState) : String :=
  "Done. Copied: " ++ toString execution.completedTransfers ++
    ". Deleted: " ++ toString execution.completedDeletes ++
    ". Transfer failures: " ++ toString execution.failedTransfers ++
    ". Delete failures: " ++ toString execution.failedDeletes ++
    ". Bytes: " ++ toString execution.bytesDone ++ " / " ++ toString execution.totalBytes ++ "." ++
    if execution.deletePhaseSkipped then
      " Delete phase was skipped because earlier transfers failed."
    else ""

/-! ## Tasks handed out -/

inductive PendingSyncTask
  | transfer (item : SyncRunItem)
  | deleteRemote (connectionId bucket : Str) (keys : List Str) (bytes : Nat) (label : Str)
  | deleteLocal (path : PathBuf) (bytes : Nat) (label : Str)
deriving DecidableEq, Repr

def nextTransferSpec (execution : SyncExecutionState) :
    Option (PendingSyncTask × SyncExecutionState) :=
  match execution.runPlan.transfers[execution.nextTransferIndex]? with
  | none => none
  | some item =>
      some (.transfer item,
        { execution with nextTransferIndex := execution.nextTransferIndex + 1 })

/-- The largest number of keys one delete request takes. -/
def DELETE_BATCH_LIMIT : Nat := 1000

/-- Collect the keys and bytes of the items of one bucket, up to the request limit. -/
def collectDeleteKeys (connectionId bucket : Str) :
    List SyncRunItem → List Str → Nat → List Str × Nat
  | [], keys, bytes => (keys, bytes)
  | item :: items, keys, bytes =>
      if keys.length < DELETE_BATCH_LIMIT then
        match item.destination with
        | .s3 itemConnection itemBucket key =>
            if itemConnection = connectionId ∧ itemBucket = bucket then
              collectDeleteKeys connectionId bucket items (keys ++ [key])
                (addU64 bytes item.bytes)
            else (keys, bytes)
        | .local _ => (keys, bytes)
      else (keys, bytes)

def nextDeleteBatchSpec (execution : SyncExecutionState) :
    Option (PendingSyncTask × SyncExecutionState) :=
  match execution.runPlan.deletes[execution.nextDeleteIndex]? with
  | none => none
  | some first =>
      match first.destination with
      | .s3 connectionId bucket _ =>
          let (keys, bytes) := collectDeleteKeys connectionId bucket
            (execution.runPlan.deletes.drop execution.nextDeleteIndex) [] 0
          some (.deleteRemote connectionId bucket keys bytes
              (bucket ++ '/' :: (keys.getLast?).getD []),
            { execution with nextDeleteIndex := execution.nextDeleteIndex + keys.length })
      | .local path =>
          some (.deleteLocal path first.bytes first.relativePath,
            { execution with nextDeleteIndex := execution.nextDeleteIndex + 1 })

/-! ## Dispatching -/

def SyncExecutionState.transfersIssued (execution : SyncExecutionState) : Prop :=
  execution.runPlan.transfers.length ≤ execution.nextTransferIndex

def SyncExecutionState.deletesIssued (execution : SyncExecutionState) : Prop :=
  execution.runPlan.deletes.length ≤ execution.nextDeleteIndex

instance (execution : SyncExecutionState) : Decidable execution.transfersIssued :=
  inferInstanceAs (Decidable (_ ≤ _))

instance (execution : SyncExecutionState) : Decidable execution.deletesIssued :=
  inferInstanceAs (Decidable (_ ≤ _))

/-- The phase after all transfers of a sync run are finished. -/
def phaseAfterTransfers : SyncDeletePhase → SyncExecutionPhase
  | .after => .deletingAfter
  | .during => .deletingDuring
  | .before => .done

/-- One turn of the phase loop; `none` leaves the loop. -/
def phaseStep (sync : SyncState) (execution : SyncExecutionState) : Option SyncExecutionState :=
  match execution.phase with
  | .deletingBefore =>
      if execution.activeDeleteBatches = 0 ∧ execution.deletesIssued then
        some { execution with phase := .copying }
      else none
  | .copying =>
      if execution.activeTransfers > 0 ∨ ¬ execution.transfersIssued then none
      else if sync.mode = .copy then some { execution with phase := .done }
      else if execution.runPlan.deletes = [] then some { execution with phase := .done }
      else if execution.transferFailed = true ∧ sync.deleteGuardrails.ignoreErrors = false then
        some { execution with deletePhaseSkipped := true, phase := .done }
      else some { execution with phase := phaseAfterTransfers sync.policy.deletePhase }
  | .deletingDuring =>
      if (execution.activeTransfers = 0 ∧ execution.transfersIssued) ∧
          execution.activeDeleteBatches = 0 ∧ execution.deletesIssued then
        some { execution with phase := .done }
      else none
  | .deletingAfter =>
      if execution.activeDeleteBatches = 0 ∧ execution.deletesIssued then
        some { execution with phase := .done }
      else none
  | .done | .stopped => none

/-- The phase loop under a budget of turns. -/
def phaseLoop (sync : SyncState) : Nat → SyncExecutionState → SyncExecutionState
  | 0, execution => execution
  | fuel + 1, execution =>
      match phaseStep sync execution with
      | some next => phaseLoop sync fuel next
      | none => execution

/-- No run of the phase loop takes more turns than this. -/
def PHASE_TURNS : Nat := 4

/-- Give transfers to free workers, under a budget of iterations. -/
def startTransfers (workers : Nat) :
    Nat → SyncExecutionState → SyncExecutionState × List PendingSyncTask
  | 0, execution => (execution, [])
  | fuel + 1, execution =>
      if execution.activeTransfers < workers ∧ ¬ execution.transfersIssued then
        match nextTransferSpec execution with
        | none => (execution, [])
        | some (spec, next) =>
            let (final, specs) := startTransfers workers fuel
              { next with activeTransfers := next.activeTransfers + 1 }
            (final, spec :: specs)
      else (execution, [])

/-- Give delete batches to free workers, under a budget of iterations. -/
def startDeletes (workers : Nat) :
    Nat → SyncExecutionState → SyncExecutionState × List PendingSyncTask
  | 0, execution => (execution, [])
  | fuel + 1, execution =>
      if execution.activeDeleteBatches < workers then
        match nextDeleteBatchSpec execution with
        | none => (execution, [])
        | some (spec, next) =>
            let (final, specs) := startDeletes workers fuel
              { next with activeDeleteBatches := next.activeDeleteBatches + 1 }
            (final, spec :: specs)
      else (execution, [])

def transferWorkers (sync : SyncState) : Nat :=
  (parseTransferWorkers sync.tuning.transferWorkersText).toOption.getD 4

def deleteWorkers (sync : SyncState) : Nat :=
  (parseDeleteWorkers sync.deleteGuardrails.deleteWorkersText).toOption.getD 4

/-- The transfers a dispatch starts; each takes one item of the queue. -/
def dispatchTransfers (sync : SyncState) (execution : SyncExecutionState) :
    SyncExecutionState × List PendingSyncTask :=
  startTransfers (transferWorkers sync)
    (execution.runPlan.transfers.length - execution.nextTransferIndex) execution

/-- The delete batches a dispatch starts; each takes at least one item of the queue. -/
def dispatchDeletes (sync : SyncState) (execution : SyncExecutionState) :
    SyncExecutionState × List PendingSyncTask :=
  startDeletes (deleteWorkers sync)
    (execution.runPlan.deletes.length - execution.nextDeleteIndex) execution

/-- What the phase hands out, and the stage it reports. -/
def dispatchPhase (sync : SyncState) (execution : SyncExecutionState) :
    String × SyncExecutionState × List PendingSyncTask :=
  match execution.phase with
  | .deletingBefore => ("Deleting before copy", dispatchDeletes sync execution)
  | .copying =>
      (if sync.mode = .copy then "Copying" else "Syncing", dispatchTransfers sync execution)
  | .deletingDuring =>
      let (afterTransfers, transfers) := dispatchTransfers sync execution
      let (afterDeletes, deletes) := dispatchDeletes sync afterTransfers
      ("Syncing with deletes", afterDeletes, transfers ++ deletes)
  | .deletingAfter => ("Deleting extras", dispatchDeletes sync execution)
  | .done | .stopped => ("Idle", execution, [])

/-- The state with the given execution and stage. -/
def SyncState.withExecution (sync : SyncState) (execution : SyncExecutionState)
    (stage : String) : SyncState :=
  { sync with
    execution := some execution
    telemetry := { sync.telemetry with stage := stage } }

def dispatchSyncExecution (sync : SyncState) : SyncState × List PendingSyncTask :=
  match sync.execution with
  | none => (sync, [])
  | some execution =>
      let execution := phaseLoop sync PHASE_TURNS execution
      if execution.phase = .done ∨ execution.phase = .stopped then
        (sync.withExecution
          { execution with
            running := false
            currentStrategy := none
            currentItem := none
            summary := some (finalSyncSummary execution) } "Idle", [])
      else
        let (stage, execution, specs) := dispatchPhase sync execution
        if specs = [] then
          (sync.withExecution
            { execution with
              running := false
              summary := some (finalSyncSummary execution) } "Idle", [])
        else (sync.withExecution execution stage, specs)

/-! ## Results -/

/-- The execution after one transfer result. -/
def SyncExecutionState.transferFinished (ignoreErrors : Bool) (execution : SyncExecutionState)
    (result : Except String SyncRunItem) : SyncExecutionState :=
  match result with
  | .ok item =>
      { execution with
        activeTransfers := execution.activeTransfers - 1
        completedTransfers := execution.completedTransfers + 1
        bytesDone := addU64 execution.bytesDone item.bytes
        currentItem := some item.relativePath
        currentStrategy := some item.strategy }
  | .error _ =>
      { execution with
        activeTransfers := execution.activeTransfers - 1
        failedTransfers := execution.failedTransfers + 1
        transferFailed := true
        phase :=
          if ignoreErrors = false ∧ execution.phase = .deletingDuring then .stopped
          else execution.phase }

def copyStepFinished (sync : SyncState) (result : Except String SyncRunItem) :
    SyncState × List PendingSyncTask :=
  match sync.execution with
  | none => (sync, [])
  | some execution =>
      let execution := execution.transferFinished sync.deleteGuardrails.ignoreErrors result
      let telemetry := match result with
        | .ok _ => { sync.telemetry with activeTransfers := execution.activeTransfers }
        | .error _ => sync.telemetry
      dispatchSyncExecution { sync with execution := some execution, telemetry := telemetry }

/-- The execution after one delete result. -/
def SyncExecutionState.deleteFinished (ignoreErrors : Bool) (execution : SyncExecutionState)
    (result : Except String SyncDeleteBatchResult) : SyncExecutionState :=
  match result with
  | .ok batch =>
      { execution with
        activeDeleteBatches := execution.activeDeleteBatches - 1
        completedDeletes := execution.completedDeletes + batch.completed
        failedDeletes := execution.failedDeletes + batch.failed
        bytesDone := addU64 execution.bytesDone batch.bytes
        currentItem := some batch.label }
  | .error _ =>
      { execution with
        activeDeleteBatches := execution.activeDeleteBatches - 1
        failedDeletes := execution.failedDeletes + 1
        phase := if ignoreErrors = false then .stopped else execution.phase }

def deleteBatchFinished (sync : SyncState) (result : Except String SyncDeleteBatchResult) :
    SyncState × List PendingSyncTask :=
  match sync.execution with
  | none => (sync, [])
  | some execution =>
      dispatchSyncExecution
        { sync with
          execution := some
            (execution.deleteFinished sync.deleteGuardrails.ignoreErrors result) }

end AbixioUi
