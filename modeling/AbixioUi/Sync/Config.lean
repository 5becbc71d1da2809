import AbixioUi.Types

/-! # Checking the sync configuration

What planning checks before it enumerates, and what execution checks before it
deletes. Numeric settings are texts and are parsed where they are used.
-/

namespace AbixioUi

open Foundation

/-- The fields that hold a plan, what it was made from, and what runs it. -/
def clearSyncPlan (sync : SyncState) : SyncState :=
  { sync with
    plan := none
    runPlan := none
    execution := none
    deleteConfirm := none
    error := none
    sourceSnapshot := none
    destinationSnapshot := none }

/-! ## Numeric settings -/

/-- A positive 64-bit number, under the label that its errors name. -/
def parsePositive (label : String) (text : Str) : Except String Nat :=
  match parseUnsigned 64 (trim text) with
  | none => .error (label ++ " must be a positive integer.")
  | some value =>
      if value = 0 then .error (label ++ " must be greater than zero.") else .ok value

def parsePlannerLimit (text : Str) : Except String Nat := parsePositive "Planner limit" text

def parseTransferWorkers (text : Str) : Except String Nat := parsePositive "Transfer workers" text

def parseDeleteWorkers (text : Str) : Except String Nat := parsePositive "Delete workers" text

/-- A blank text sets no limit. -/
def parseOptionalPositive (label : String) (text : Str) : Except String (Option Nat) :=
  if trim text = [] then .ok none else (parsePositive label text).map some

def parseOptionalUsize (text : Str) (label : String) : Except String (Option Nat) :=
  parseOptionalPositive label text

def parseOptionalU64 (text : Str) (label : String) : Except String (Option Nat) :=
  parseOptionalPositive label text

theorem parsePositive_pos {label : String} {text : Str} {value : Nat}
    (h : parsePositive label text = .ok value) : 0 < value := by
  unfold parsePositive at h
  cases hparse : parseUnsigned 64 (trim text) with
  | none => simp [hparse] at h
  | some n =>
      by_cases hzero : n = 0
      · simp [hparse, hzero] at h
      · simp only [hparse, hzero, if_false, Except.ok.injEq] at h
        omega

/-! ## Endpoints -/

def sameSyncEndpoint (sync : SyncState) : Bool :=
  match sync.sourceKind, sync.destinationKind with
  | .s3, .s3 =>
      decide (sync.sourceConnectionId = sync.destinationConnectionId) &&
        decide (sync.sourceBucket = sync.destinationBucket) &&
        decide (sync.sourcePrefix = sync.destinationPrefix)
  | .local, .local => decide (sync.sourceLocalPath = sync.destinationLocalPath)
  | _, _ => false

def validateSyncConfig (sync : SyncState) : Except String Unit := do
  if sync.sourceKind = .s3 ∧ trim sync.sourceBucket = [] then
    throw "Source bucket is required."
  if sync.destinationKind = .s3 ∧ trim sync.destinationBucket = [] then
    throw "Destination bucket is required."
  if sync.sourceKind = .local ∧ sync.sourceLocalPath = none then
    throw "Source local path is required."
  if sync.destinationKind = .local ∧ sync.destinationLocalPath = none then
    throw "Destination local path is required."
  if sameSyncEndpoint sync then
    throw "Source and destination must be different."
  let _ ← parsePlannerLimit sync.tuning.maxPlannerItemsText
  let _ ← parseDeleteWorkers sync.deleteGuardrails.deleteWorkersText
  let _ ← parseOptionalUsize sync.deleteGuardrails.maxDeleteCountText "Max delete count"
  let _ ← parseOptionalU64 sync.deleteGuardrails.maxDeleteBytesText "Max delete bytes"
  return ()

/-- An accepted configuration names its local roots and two different endpoints. -/
theorem validateSyncConfig_ok {sync : SyncState} (h : validateSyncConfig sync = .ok ()) :
    (sync.sourceKind = .local → sync.sourceLocalPath ≠ none) ∧
      (sync.destinationKind = .local → sync.destinationLocalPath ≠ none) ∧
      sameSyncEndpoint sync = false := by
  unfold validateSyncConfig at h
  simp only [bind, Except.bind, pure, Except.pure, throw, throwThe, MonadExceptOf.throw] at h
  split_ifs at h
  simp_all

/-! ## Delete guardrails -/

/-- A configured limit that the planned value exceeds is reported. -/
def checkLimit (limit : Option Nat) (planned : Nat) (message : Nat → String) :
    Except String Unit :=
  match limit with
  | some limit => if planned > limit then .error (message limit) else .ok ()
  | none => .ok ()

def validateSyncGuardrails (sync : SyncState) (runPlan : SyncRunPlan) : Except String Unit := do
  let countLimit ← parseOptionalUsize sync.deleteGuardrails.maxDeleteCountText "Max delete count"
  checkLimit countLimit runPlan.deletes.length fun limit =>
    "Delete count guardrail exceeded: " ++ toString runPlan.deletes.length ++
      " planned deletes is above " ++ toString limit ++ "."
  let bytesLimit ← parseOptionalU64 sync.deleteGuardrails.maxDeleteBytesText "Max delete bytes"
  checkLimit bytesLimit runPlan.totalDeleteBytes fun limit =>
    "Delete byte guardrail exceeded: " ++ toString runPlan.totalDeleteBytes ++
      " planned delete bytes is above " ++ toString limit ++ "."

theorem checkLimit_ok {limit : Option Nat} {planned : Nat} {message : Nat → String}
    (h : checkLimit limit planned message = .ok ()) : ∀ n, limit = some n → planned ≤ n := by
  rintro n rfl
  by_contra hgt
  simp [checkLimit, Nat.not_le.mp hgt] at h

/-- Accepted deletes are within both limits, and both limits are readable. -/
theorem validateSyncGuardrails_ok {sync : SyncState} {runPlan : SyncRunPlan}
    (h : validateSyncGuardrails sync runPlan = .ok ()) :
    (∃ limit, parseOptionalUsize sync.deleteGuardrails.maxDeleteCountText "Max delete count" =
        .ok limit ∧ ∀ n, limit = some n → runPlan.deletes.length ≤ n) ∧
      ∃ limit, parseOptionalU64 sync.deleteGuardrails.maxDeleteBytesText "Max delete bytes" =
        .ok limit ∧ ∀ n, limit = some n → runPlan.totalDeleteBytes ≤ n := by
  unfold validateSyncGuardrails at h
  cases hcount : parseOptionalUsize sync.deleteGuardrails.maxDeleteCountText
      "Max delete count" with
  | error e => simp [hcount, bind, Except.bind] at h
  | ok countLimit =>
      simp only [hcount, bind, Except.bind] at h
      split at h
      · simp at h
      · rename_i hchecked
        cases hbytes : parseOptionalU64 sync.deleteGuardrails.maxDeleteBytesText
            "Max delete bytes" with
        | error e => simp [hbytes] at h
        | ok bytesLimit =>
            simp only [hbytes] at h
            exact ⟨⟨countLimit, rfl, checkLimit_ok hchecked⟩, bytesLimit, rfl, checkLimit_ok h⟩

end AbixioUi
