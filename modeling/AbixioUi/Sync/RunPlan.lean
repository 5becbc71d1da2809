import AbixioUi.Foundation.Lists
import AbixioUi.Types

/-! # Run plans

A plan's relative paths are turned back into addresses: S3 keys below the
configured prefix, or file paths below the configured root. A run plan lists the
transfers and the deletes with their addresses and strategies.
-/

namespace AbixioUi

open Foundation

/-- One side's configuration, as the enumeration of that side receives it. -/
structure EndpointParams where
  kind : SyncEndpointKind
  localPath : Option PathBuf
  connectionId : Str
  bucket : Str
  keyPrefix : Str
  filters : SyncFilterSet
deriving DecidableEq, Repr

def syncEndpointParams (sync : SyncState) (source : Bool) : EndpointParams where
  kind := if source then sync.sourceKind else sync.destinationKind
  localPath := if source then sync.sourceLocalPath else sync.destinationLocalPath
  connectionId := if source then sync.sourceConnectionId else sync.destinationConnectionId
  bucket := if source then sync.sourceBucket else sync.destinationBucket
  keyPrefix := if source then sync.sourcePrefix else sync.destinationPrefix
  filters := sync.filters

def joinS3Key (keyPrefix relative : Str) : Str :=
  if keyPrefix = [] then relative
  else if endsWith '/' keyPrefix then keyPrefix ++ relative
  else keyPrefix ++ '/' :: relative

def buildTransferEndpoint (platform : Platform) (sync : SyncState) (source : Bool)
    (relativePath : Str) : Except String TransferEndpoint :=
  let pathFragment := replaceChar '/' platform.mainSeparator relativePath
  match if source then sync.sourceKind else sync.destinationKind with
  | .s3 =>
      .ok (.s3 (if source then sync.sourceConnectionId else sync.destinationConnectionId)
        (if source then sync.sourceBucket else sync.destinationBucket)
        (joinS3Key (if source then sync.sourcePrefix else sync.destinationPrefix) relativePath))
  | .local =>
      match if source then sync.sourceLocalPath else sync.destinationLocalPath with
      | none => .error "Local path is required."
      | some root => .ok (.local (root.join platform pathFragment))

def determineExecutionStrategy (source destination : TransferEndpoint) :
    Except String SyncExecutionStrategy :=
  match source, destination with
  | .local _, .s3 .. => .ok .upload
  | .s3 .., .local _ => .ok .download
  | .s3 sourceConnection _ _, .s3 destinationConnection _ _ =>
      if sourceConnection = destinationConnection then .ok .serverSideCopy else .ok .clientRelay
  | .local _, .local _ =>
      .error "Local to local copy is not supported in sync execution."

def determineDeleteStrategy (destination : TransferEndpoint) :
    Except String SyncExecutionStrategy :=
  match destination with
  | .s3 .. => .ok .deleteRemote
  | .local _ => .ok .deleteLocal

def transferRunItem (platform : Platform) (sync : SyncState) (planItem : SyncPlanItem) :
    Except String SyncRunItem := do
  let source ← buildTransferEndpoint platform sync true planItem.relativePath
  let destination ← buildTransferEndpoint platform sync false planItem.relativePath
  let strategy ← determineExecutionStrategy source destination
  return {
    relativePath := planItem.relativePath
    action := planItem.action
    source := source
    destination := destination
    strategy := strategy
    bytes := objectSize planItem.source }

/-- A delete carries its target as the source too. -/
def deleteRunItem (platform : Platform) (sync : SyncState) (planItem : SyncPlanItem) :
    Except String SyncRunItem := do
  let destination ← buildTransferEndpoint platform sync false planItem.relativePath
  let strategy ← determineDeleteStrategy destination
  return {
    relativePath := planItem.relativePath
    action := planItem.action
    source := destination
    destination := destination
    strategy := strategy
    bytes := objectSize planItem.destination }

/-- One iteration over the plan: the transfers and the deletes so far. -/
def prepareStep (platform : Platform) (sync : SyncState)
    (prepared : List SyncRunItem × List SyncRunItem) (planItem : SyncPlanItem) :
    Except String (List SyncRunItem × List SyncRunItem) :=
  match planItem.action with
  | .create | .update => do
      let item ← transferRunItem platform sync planItem
      return (prepared.1 ++ [item], prepared.2)
  | .delete => do
      let item ← deleteRunItem platform sync planItem
      return (prepared.1, prepared.2 ++ [item])
  | .skip | .conflict => .ok prepared

def prepareSyncRunPlan (platform : Platform) (sync : SyncState) (plan : SyncPlan) :
    Except String SyncRunPlan := do
  let (transfers, deletes) ← plan.items.foldlM (prepareStep platform sync) ([], [])
  return {
    transfers := transfers
    deletes := deletes
    totalTransferBytes := sumU64 (transfers.map SyncRunItem.bytes)
    totalDeleteBytes := sumU64 (deletes.map SyncRunItem.bytes)
    hasClientRelay := transfers.any fun item => decide (item.strategy = .clientRelay) }

/-! ## Addresses -/

/-- The address a relative path has on one side of the given configuration. -/
def EndpointParams.address (platform : Platform) (params : EndpointParams) (relativePath : Str) :
    Except String TransferEndpoint :=
  match params.kind, params.localPath with
  | .s3, _ => .ok (.s3 params.connectionId params.bucket (joinS3Key params.keyPrefix relativePath))
  | .local, none => .error "Local path is required."
  | .local, some root =>
      .ok (.local (root.join platform (replaceChar '/' platform.mainSeparator relativePath)))

theorem buildTransferEndpoint_eq (platform : Platform) (sync : SyncState) (source : Bool)
    (relativePath : Str) :
    buildTransferEndpoint platform sync source relativePath =
      (syncEndpointParams sync source).address platform relativePath := by
  unfold buildTransferEndpoint EndpointParams.address syncEndpointParams
  cases (if source then sync.sourceKind else sync.destinationKind) with
  | s3 => rfl
  | «local» =>
      cases (if source then sync.sourceLocalPath else sync.destinationLocalPath) with
      | none => rfl
      | some root => rfl

/-- A run plan depends on the screen through the two endpoints. -/
theorem prepareSyncRunPlan_congr {platform : Platform} {sync sync' : SyncState}
    (h : ∀ source, syncEndpointParams sync' source = syncEndpointParams sync source)
    (plan : SyncPlan) :
    prepareSyncRunPlan platform sync' plan = prepareSyncRunPlan platform sync plan := by
  have hendpoint : buildTransferEndpoint platform sync' = buildTransferEndpoint platform sync := by
    funext source relativePath
    rw [buildTransferEndpoint_eq, buildTransferEndpoint_eq, h]
  have hstep : prepareStep platform sync' = prepareStep platform sync := by
    funext prepared planItem
    simp only [prepareStep, transferRunItem, deleteRunItem, hendpoint]
  simp only [prepareSyncRunPlan, hstep]

/-! ## What a run plan holds -/

section Prepared

variable {platform : Platform} {sync : SyncState}

theorem transferRunItem_ok {planItem : SyncPlanItem} {item : SyncRunItem}
    (h : transferRunItem platform sync planItem = .ok item) :
    item.relativePath = planItem.relativePath ∧ item.action = planItem.action ∧
      item.bytes = objectSize planItem.source ∧
      (syncEndpointParams sync true).address platform planItem.relativePath = .ok item.source ∧
      (syncEndpointParams sync false).address platform planItem.relativePath =
        .ok item.destination ∧
      determineExecutionStrategy item.source item.destination = .ok item.strategy := by
  unfold transferRunItem at h
  rw [buildTransferEndpoint_eq, buildTransferEndpoint_eq] at h
  cases hs : (syncEndpointParams sync true).address platform planItem.relativePath with
  | error e => simp [hs, bind, Except.bind] at h
  | ok source =>
      cases hd : (syncEndpointParams sync false).address platform planItem.relativePath with
      | error e => simp [hs, hd, bind, Except.bind] at h
      | ok destination =>
          cases hk : determineExecutionStrategy source destination with
          | error e => simp [hs, hd, hk, bind, Except.bind] at h
          | ok strategy =>
              simp only [hs, hd, hk, bind, Except.bind, pure, Except.pure, Except.ok.injEq] at h
              subst h
              exact ⟨rfl, rfl, rfl, rfl, rfl, hk⟩

theorem deleteRunItem_ok {planItem : SyncPlanItem} {item : SyncRunItem}
    (h : deleteRunItem platform sync planItem = .ok item) :
    item.relativePath = planItem.relativePath ∧ item.action = planItem.action ∧
      item.bytes = objectSize planItem.destination ∧ item.source = item.destination ∧
      (syncEndpointParams sync false).address platform planItem.relativePath =
        .ok item.destination := by
  unfold deleteRunItem at h
  rw [buildTransferEndpoint_eq] at h
  cases hd : (syncEndpointParams sync false).address platform planItem.relativePath with
  | error e => simp [hd, bind, Except.bind] at h
  | ok destination =>
      cases hk : determineDeleteStrategy destination with
      | error e => simp [hd, hk, bind, Except.bind] at h
      | ok strategy =>
          simp only [hd, hk, bind, Except.bind, pure, Except.pure, Except.ok.injEq] at h
          subst h
          exact ⟨rfl, rfl, rfl, rfl, rfl⟩

/-- What the loop adds to the transfers and to the deletes, item by item. -/
theorem foldlM_prepareStep {planItems : List SyncPlanItem}
    {prepared result : List SyncRunItem × List SyncRunItem}
    (h : planItems.foldlM (prepareStep platform sync) prepared = .ok result) :
    ∃ transfers deletes,
      result = (prepared.1 ++ transfers, prepared.2 ++ deletes) ∧
      List.Forall₂ (fun planItem item => transferRunItem platform sync planItem = .ok item)
        (planItems.filter (·.action.transfers)) transfers ∧
      List.Forall₂ (fun planItem item => deleteRunItem platform sync planItem = .ok item)
        (planItems.filter (·.action.deletes)) deletes := by
  induction planItems generalizing prepared with
  | nil =>
      obtain rfl : prepared = result := by simpa [pure, Except.pure] using h
      exact ⟨[], [], by simp, .nil, .nil⟩
  | cons planItem planItems ih =>
      rw [List.foldlM_cons] at h
      cases hstep : prepareStep platform sync prepared planItem with
      | error e => simp [hstep, bind, Except.bind] at h
      | ok next =>
          simp only [hstep, bind, Except.bind] at h
          obtain ⟨transfers, deletes, rfl, htransfers, hdeletes⟩ := ih h
          unfold prepareStep at hstep
          cases ha : planItem.action with
          | create | update =>
              simp only [ha, bind, Except.bind] at hstep
              cases hitem : transferRunItem platform sync planItem with
              | error e => simp [hitem] at hstep
              | ok item =>
                  simp only [hitem, pure, Except.pure, Except.ok.injEq] at hstep
                  subst hstep
                  refine ⟨item :: transfers, deletes, by simp, ?_, ?_⟩
                  · simpa [ha, SyncPlanAction.transfers] using ⟨hitem, htransfers⟩
                  · simpa [ha, SyncPlanAction.deletes] using hdeletes
          | delete =>
              simp only [ha, bind, Except.bind] at hstep
              cases hitem : deleteRunItem platform sync planItem with
              | error e => simp [hitem] at hstep
              | ok item =>
                  simp only [hitem, pure, Except.pure, Except.ok.injEq] at hstep
                  subst hstep
                  refine ⟨transfers, item :: deletes, by simp, ?_, ?_⟩
                  · simpa [ha, SyncPlanAction.transfers] using htransfers
                  · simpa [ha, SyncPlanAction.deletes] using ⟨hitem, hdeletes⟩
          | skip | conflict =>
              simp only [ha, Except.ok.injEq] at hstep
              subst hstep
              refine ⟨transfers, deletes, rfl, ?_, ?_⟩
              · simpa [ha, SyncPlanAction.transfers] using htransfers
              · simpa [ha, SyncPlanAction.deletes] using hdeletes

/-- The transfers and deletes of a run plan are those of the plan, in order. -/
theorem prepareSyncRunPlan_ok {plan : SyncPlan} {runPlan : SyncRunPlan}
    (h : prepareSyncRunPlan platform sync plan = .ok runPlan) :
    List.Forall₂ (fun planItem item => transferRunItem platform sync planItem = .ok item)
        (plan.items.filter (·.action.transfers)) runPlan.transfers ∧
      List.Forall₂ (fun planItem item => deleteRunItem platform sync planItem = .ok item)
        (plan.items.filter (·.action.deletes)) runPlan.deletes ∧
      runPlan.totalTransferBytes = sumU64 (runPlan.transfers.map SyncRunItem.bytes) ∧
      runPlan.totalDeleteBytes = sumU64 (runPlan.deletes.map SyncRunItem.bytes) := by
  unfold prepareSyncRunPlan at h
  cases hfold : plan.items.foldlM (prepareStep platform sync) ([], []) with
  | error e => simp [hfold, bind, Except.bind] at h
  | ok result =>
      obtain ⟨transfers, deletes, rfl, htransfers, hdeletes⟩ := foldlM_prepareStep hfold
      simp only [hfold, bind, Except.bind, pure, Except.pure, List.nil_append,
        Except.ok.injEq] at h
      subst h
      exact ⟨htransfers, hdeletes, rfl, rfl⟩

/-- A transfer to an S3 key can always be prepared from a known source. -/
theorem transferRunItem_isOk {planItem : SyncPlanItem} {source : TransferEndpoint}
    {connectionId bucket key : Str}
    (hs : buildTransferEndpoint platform sync true planItem.relativePath = .ok source)
    (hd : buildTransferEndpoint platform sync false planItem.relativePath =
      .ok (.s3 connectionId bucket key)) :
    ∃ item, transferRunItem platform sync planItem = .ok item := by
  have hstrategy : ∃ strategy,
      determineExecutionStrategy source (.s3 connectionId bucket key) = .ok strategy := by
    cases source with
    | s3 sourceConnection sourceBucket sourceKey =>
        by_cases hsame : sourceConnection = connectionId <;>
          simp [determineExecutionStrategy, hsame]
    | «local» path => exact ⟨_, rfl⟩
  obtain ⟨strategy, hstrategy⟩ := hstrategy
  unfold transferRunItem
  simp [hs, hd, hstrategy, bind, Except.bind, pure, Except.pure]

theorem deleteRunItem_isOk {planItem : SyncPlanItem} {destination : TransferEndpoint}
    (hd : buildTransferEndpoint platform sync false planItem.relativePath = .ok destination) :
    ∃ item, deleteRunItem platform sync planItem = .ok item := by
  unfold deleteRunItem
  cases destination <;>
    simp [hd, determineDeleteStrategy, bind, Except.bind, pure, Except.pure]

theorem foldlM_prepareStep_isOk {planItems : List SyncPlanItem}
    (ht : ∀ planItem ∈ planItems, planItem.action.transfers = true →
      ∃ item, transferRunItem platform sync planItem = .ok item)
    (hd : ∀ planItem ∈ planItems, planItem.action.deletes = true →
      ∃ item, deleteRunItem platform sync planItem = .ok item)
    (prepared : List SyncRunItem × List SyncRunItem) :
    ∃ result, planItems.foldlM (prepareStep platform sync) prepared = .ok result := by
  induction planItems generalizing prepared with
  | nil => exact ⟨prepared, rfl⟩
  | cons planItem planItems ih =>
      have hstep : ∃ next, prepareStep platform sync prepared planItem = .ok next := by
        unfold prepareStep
        cases ha : planItem.action with
        | create | update =>
            obtain ⟨item, hitem⟩ := ht planItem (by simp) (by simp [ha, SyncPlanAction.transfers])
            simp [hitem, bind, Except.bind, pure, Except.pure]
        | delete =>
            obtain ⟨item, hitem⟩ := hd planItem (by simp) (by simp [ha, SyncPlanAction.deletes])
            simp [hitem, bind, Except.bind, pure, Except.pure]
        | skip | conflict => exact ⟨prepared, rfl⟩
      obtain ⟨next, hnext⟩ := hstep
      rw [List.foldlM_cons, hnext]
      exact ih (fun p hp => ht p (List.mem_cons_of_mem _ hp))
        (fun p hp => hd p (List.mem_cons_of_mem _ hp)) next

theorem prepareSyncRunPlan_isOk {plan : SyncPlan}
    (ht : ∀ planItem ∈ plan.items, planItem.action.transfers = true →
      ∃ item, transferRunItem platform sync planItem = .ok item)
    (hd : ∀ planItem ∈ plan.items, planItem.action.deletes = true →
      ∃ item, deleteRunItem platform sync planItem = .ok item) :
    ∃ runPlan, prepareSyncRunPlan platform sync plan = .ok runPlan := by
  obtain ⟨result, hresult⟩ := foldlM_prepareStep_isOk ht hd ([], [])
  unfold prepareSyncRunPlan
  rw [hresult]
  exact ⟨_, rfl⟩

theorem mem_runPlan_transfers {plan : SyncPlan} {runPlan : SyncRunPlan} {item : SyncRunItem}
    (h : prepareSyncRunPlan platform sync plan = .ok runPlan) (hitem : item ∈ runPlan.transfers) :
    ∃ planItem ∈ plan.items, planItem.action.transfers = true ∧
      transferRunItem platform sync planItem = .ok item := by
  obtain ⟨planItem, hmem, hrun⟩ := forall₂_exists_left (prepareSyncRunPlan_ok h).1 hitem
  obtain ⟨hplan, haction⟩ := List.mem_filter.mp hmem
  exact ⟨planItem, hplan, haction, hrun⟩

theorem mem_runPlan_deletes {plan : SyncPlan} {runPlan : SyncRunPlan} {item : SyncRunItem}
    (h : prepareSyncRunPlan platform sync plan = .ok runPlan) (hitem : item ∈ runPlan.deletes) :
    ∃ planItem ∈ plan.items, planItem.action = .delete ∧
      deleteRunItem platform sync planItem = .ok item := by
  obtain ⟨planItem, hmem, hrun⟩ := forall₂_exists_left (prepareSyncRunPlan_ok h).2.1 hitem
  obtain ⟨hplan, haction⟩ := List.mem_filter.mp hmem
  refine ⟨planItem, hplan, ?_, hrun⟩
  cases ha : planItem.action <;> simp_all [SyncPlanAction.deletes]

theorem runPlan_transfers_paths {plan : SyncPlan} {runPlan : SyncRunPlan}
    (h : prepareSyncRunPlan platform sync plan = .ok runPlan) :
    runPlan.transfers.map SyncRunItem.relativePath =
      (plan.items.filter (·.action.transfers)).map SyncPlanItem.relativePath :=
  forall₂_map_eq (prepareSyncRunPlan_ok h).1 fun _ _ hitem => (transferRunItem_ok hitem).1

theorem runPlan_deletes_paths {plan : SyncPlan} {runPlan : SyncRunPlan}
    (h : prepareSyncRunPlan platform sync plan = .ok runPlan) :
    runPlan.deletes.map SyncRunItem.relativePath =
      (plan.items.filter (·.action.deletes)).map SyncPlanItem.relativePath :=
  forall₂_map_eq (prepareSyncRunPlan_ok h).2.1 fun _ _ hitem => (deleteRunItem_ok hitem).1

end Prepared

end AbixioUi
