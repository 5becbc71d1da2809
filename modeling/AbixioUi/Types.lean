import AbixioUi.Foundation.Path
import Mathlib.Algebra.Ring.Nat

/-! # Application data types

The types of the sync workflow, the transfer and delete modals and the saved
connections, with the fields that the modelled functions read or write. Texts
the program computes with are `Str`; messages that are only shown are `String`.
Sizes and byte counts are 64-bit unsigned values, held as naturals.
-/

namespace AbixioUi

open Foundation

def CURRENT_CONNECTION_ID : Str := "__current__".toList

inductive TransferMode
  | copyObject
  | moveObject
  | importFolder
  | exportPrefix
deriving DecidableEq, Repr

inductive OverwritePolicy
  | ask
  | overwriteAll
  | skipAll
deriving DecidableEq, Repr

inductive TransferEndpoint
  | s3 (connectionId bucket key : Str)
  | local (path : PathBuf)
deriving DecidableEq, Repr

structure TransferItem where
  source : TransferEndpoint
  destination : TransferEndpoint
deriving DecidableEq, Repr

inductive TransferStepResult
  | conflict (item : TransferItem)
  | copied (label : String)
  | skipped (label : String)
deriving DecidableEq, Repr

inductive BucketDeleteStepResult
  | objectDeleted (label : Str)
  | bucketDeleted (bucket : Str)
deriving DecidableEq, Repr

/-! ## Sync configuration -/

inductive SyncMode
  | diff
  | copy
  | sync
deriving DecidableEq, Repr

inductive SyncPreset
  | converge
  | updateOnly
  | exact
  | custom
deriving DecidableEq, Repr

inductive SyncDestinationNewerPolicy
  | sourceWins
  | skip
  | conflict
deriving DecidableEq, Repr

inductive SyncDeletePhase
  | before
  | during
  | after
deriving DecidableEq, Repr

structure SyncPolicy where
  overwriteChanged : Bool
  deleteExtras : Bool
  destinationNewerPolicy : SyncDestinationNewerPolicy
  deletePhase : SyncDeletePhase
deriving DecidableEq, Repr

def SyncPreset.policy : SyncPreset → SyncPolicy
  | .converge => ⟨true, true, .sourceWins, .after⟩
  | .updateOnly => ⟨true, false, .sourceWins, .after⟩
  | .exact => ⟨true, true, .conflict, .after⟩
  | .custom => ⟨true, true, .sourceWins, .after⟩

inductive SyncCompareMode
  | sizeOnly
  | sizeAndModTime
  | updateIfSourceNewer
  | checksumIfAvailable
  | alwaysOverwrite
deriving DecidableEq, Repr

inductive SyncListMode
  | streaming
  | fastList
  | topUp
deriving DecidableEq, Repr

inductive SyncEndpointKind
  | s3
  | local
deriving DecidableEq, Repr

structure SyncFilterSet where
  includePatternsText : Str
  excludePatternsText : Str
  newerThanText : Str
  olderThanText : Str
  minSizeText : Str
  maxSizeText : Str
deriving DecidableEq, Repr

structure SyncTuning where
  listMode : SyncListMode
  compareMode : SyncCompareMode
  listWorkersText : Str
  compareWorkersText : Str
  transferWorkersText : Str
  fastListEnabled : Bool
  preferServerModtime : Bool
  maxPlannerItemsText : Str
  bwlimitText : Str
  multipartCutoffText : Str
  multipartChunkSizeText : Str
deriving DecidableEq, Repr

structure SyncDeleteGuardrails where
  ignoreErrors : Bool
  deleteWorkersText : Str
  maxDeleteCountText : Str
  maxDeleteBytesText : Str
deriving DecidableEq, Repr

/-! ## Listings and plans -/

structure SyncObject where
  relativePath : Str
  size : Nat
  modified : Option Str
  etag : Option Str
  isDirMarker : Bool
deriving DecidableEq, Repr

def objectSize (object : Option SyncObject) : Nat := (object.map SyncObject.size).getD 0

inductive SyncPlanAction
  | create
  | update
  | delete
  | skip
  | conflict
deriving DecidableEq, Repr

/-- The actions that write the destination. -/
def SyncPlanAction.transfers : SyncPlanAction → Bool
  | .create | .update => true
  | _ => false

def SyncPlanAction.deletes : SyncPlanAction → Bool
  | .delete => true
  | _ => false

inductive SyncPlanReason
  | missingOnDestination
  | missingOnSource
  | sizeMismatch
  | sourceNewer
  | destinationNewer
  | checksumMismatch
  | filteredOut
  | identical
deriving DecidableEq, Repr

structure SyncPlanItem where
  action : SyncPlanAction
  reason : SyncPlanReason
  relativePath : Str
  source : Option SyncObject
  destination : Option SyncObject
deriving DecidableEq, Repr

structure SyncPlanSummary where
  creates : Nat := 0
  updates : Nat := 0
  deletes : Nat := 0
  skips : Nat := 0
  conflicts : Nat := 0
  bytesToCreate : Nat := 0
  bytesToUpdate : Nat := 0
  bytesToDelete : Nat := 0
  sourceScanned : Nat := 0
  destinationScanned : Nat := 0
deriving DecidableEq, Repr

structure SyncPlan where
  items : List SyncPlanItem
  summary : SyncPlanSummary
deriving DecidableEq, Repr

inductive SyncExecutionStrategy
  | upload
  | download
  | serverSideCopy
  | clientRelay
  | deleteRemote
  | deleteLocal
deriving DecidableEq, Repr

structure SyncRunItem where
  relativePath : Str
  action : SyncPlanAction
  source : TransferEndpoint
  destination : TransferEndpoint
  strategy : SyncExecutionStrategy
  bytes : Nat
deriving DecidableEq, Repr

structure SyncRunPlan where
  transfers : List SyncRunItem
  deletes : List SyncRunItem
  totalTransferBytes : Nat
  totalDeleteBytes : Nat
  hasClientRelay : Bool
deriving DecidableEq, Repr

/-! ## Execution -/

inductive SyncExecutionPhase
  | deletingBefore
  | copying
  | deletingDuring
  | deletingAfter
  | done
  | stopped
deriving DecidableEq, Repr

structure SyncExecutionState where
  phase : SyncExecutionPhase
  runPlan : SyncRunPlan
  nextTransferIndex : Nat
  nextDeleteIndex : Nat
  activeTransfers : Nat
  activeDeleteBatches : Nat
  completedTransfers : Nat
  completedDeletes : Nat
  failedTransfers : Nat
  failedDeletes : Nat
  bytesDone : Nat
  totalBytes : Nat
  currentItem : Option Str
  currentStrategy : Option SyncExecutionStrategy
  running : Bool
  summary : Option String
  hasClientRelay : Bool
  deletePhaseSkipped : Bool
  transferFailed : Bool
deriving DecidableEq, Repr

structure SyncDeleteConfirmState where
  plannedDeletes : Nat
  plannedDeleteBytes : Nat
  typedRequired : Bool
  thresholdReason : Option String
  confirmText : Str
deriving DecidableEq, Repr

structure SyncDeleteBatchResult where
  completed : Nat
  failed : Nat
  bytes : Nat
  label : Str
deriving DecidableEq, Repr

structure SyncTelemetry where
  stage : String
  sourceScanned : Nat
  destinationScanned : Nat
  compared : Nat
  filtered : Nat
  activeTransfers : Nat
deriving DecidableEq, Repr

structure SyncState where
  mode : SyncMode
  preset : SyncPreset
  policy : SyncPolicy
  sourceKind : SyncEndpointKind
  destinationKind : SyncEndpointKind
  sourceConnectionId : Str
  destinationConnectionId : Str
  sourceBucket : Str
  destinationBucket : Str
  sourcePrefix : Str
  destinationPrefix : Str
  sourceLocalPath : Option PathBuf
  destinationLocalPath : Option PathBuf
  sourceBuckets : Option (Except String (List Str))
  destinationBuckets : Option (Except String (List Str))
  loadingSourceBuckets : Bool
  loadingDestinationBuckets : Bool
  tuning : SyncTuning
  filters : SyncFilterSet
  running : Bool
  plan : Option SyncPlan
  runPlan : Option SyncRunPlan
  sourceSnapshot : Option (List SyncObject)
  destinationSnapshot : Option (List SyncObject)
  execution : Option SyncExecutionState
  deleteGuardrails : SyncDeleteGuardrails
  deleteConfirm : Option SyncDeleteConfirmState
  telemetry : SyncTelemetry
  error : Option String
  showAdvanced : Bool
  previewBeforeRun : Bool
  allowDirectRun : Bool

/-- The screen as `OpenSync` creates it. -/
def SyncState.new (currentConnectionId : Str) : SyncState where
  mode := .diff
  preset := .converge
  policy := SyncPreset.converge.policy
  sourceKind := .s3
  destinationKind := .s3
  sourceConnectionId := currentConnectionId
  destinationConnectionId := currentConnectionId
  sourceBucket := []
  destinationBucket := []
  sourcePrefix := []
  destinationPrefix := []
  sourceLocalPath := none
  destinationLocalPath := none
  sourceBuckets := none
  destinationBuckets := none
  loadingSourceBuckets := false
  loadingDestinationBuckets := false
  tuning :=
    { listMode := .streaming
      compareMode := .sizeAndModTime
      listWorkersText := "8".toList
      compareWorkersText := "8".toList
      transferWorkersText := "4".toList
      fastListEnabled := false
      preferServerModtime := true
      maxPlannerItemsText := "250000".toList
      bwlimitText := []
      multipartCutoffText := "8M".toList
      multipartChunkSizeText := "8M".toList }
  filters := ⟨[], [], [], [], [], []⟩
  running := false
  plan := none
  runPlan := none
  sourceSnapshot := none
  destinationSnapshot := none
  execution := none
  deleteGuardrails := ⟨false, "4".toList, [], []⟩
  deleteConfirm := none
  telemetry := ⟨"Idle", 0, 0, 0, 0, 0⟩
  error := none
  showAdvanced := false
  previewBeforeRun := true
  allowDirectRun := false

/-- Sync between two buckets of the current connection, under the default policy. -/
def SyncState.betweenBuckets (sourceBucket destinationBucket : Str) : SyncState :=
  { SyncState.new CURRENT_CONNECTION_ID with
    mode := .sync
    sourceBucket := sourceBucket
    destinationBucket := destinationBucket }

/-- Wrapping addition of 64-bit byte counts. -/
def addU64 (a b : Nat) : Nat := (a + b) % 2 ^ 64

def sumU64 (counts : List Nat) : Nat := counts.foldl addU64 0

theorem addU64_of_lt {a b : Nat} (h : a + b < 2 ^ 64) : addU64 a b = a + b :=
  Nat.mod_eq_of_lt h

theorem foldl_addU64_mod (counts : List Nat) (acc : Nat) :
    counts.foldl addU64 (acc % 2 ^ 64) = (acc + counts.sum) % 2 ^ 64 := by
  induction counts generalizing acc with
  | nil => rfl
  | cons count counts ih =>
      rw [List.foldl_cons, addU64, Nat.mod_add_mod, ih, List.sum_cons, Nat.add_assoc]

theorem sumU64_eq (counts : List Nat) : sumU64 counts = counts.sum % 2 ^ 64 := by
  simpa [sumU64] using foldl_addU64_mod counts 0

theorem foldl_addU64_of_lt {counts : List Nat} {acc : Nat} (h : acc + counts.sum < 2 ^ 64) :
    counts.foldl addU64 acc = acc + counts.sum := by
  induction counts generalizing acc with
  | nil => rfl
  | cons n counts ih =>
      simp only [List.sum_cons] at h
      rw [List.foldl_cons, addU64_of_lt (by omega), ih (by omega), List.sum_cons]
      omega

/-- Below the type's range the wrapping sum is the sum. -/
theorem sumU64_of_lt {counts : List Nat} (h : counts.sum < 2 ^ 64) :
    sumU64 counts = counts.sum := by
  simpa [sumU64] using @foldl_addU64_of_lt counts 0 (by simpa using h)

end AbixioUi
