import AbixioUi.App.SyncStore
import AbixioUi.Sync.Reconcile
import AbixioUi.Sync.Staging

/-! # What a sync run makes of the store

The store is compared with what it was when the two sides were listed, at every moment of
a run: while requests are under way, after failures, and when the run says it is done.
-/

namespace AbixioUi

open Foundation

universe u

variable {Content : Type u} {platform : Platform} {time : TimeCodec} {sync : SyncState}
  {source : EndpointContents platform (syncEndpointParams sync true)}
  {destination : BucketListing sync.destinationPrefix}
  {before : Store TransferEndpoint Content}
  {mode : SyncMode} {policy : SyncPolicy} {compareMode : SyncCompareMode}
  {runPlan : SyncRunPlan} {start : SyncState} {network : Network Str}
  {readCopySource : Str → Option (Str × Str)}

/-! ## The operations of a reconcilable plan -/

theorem Reconcilable.independent (h : Reconcilable platform time sync source destination before)
    (hprepare : prepareSyncRunPlan platform sync
      (planBetween time source destination mode policy compareMode) = .ok runPlan) :
    StoreOp.Independent runPlan.operations :=
  ⟨nodup_operations_targets h.destination_s3 (nodup_buildSyncPlan_paths _ _ _ _ _) hprepare,
    fun _ hop => h.not_reads_targets hprepare hop⟩

/-- If servers take the text of each listed address for that address, every transfer of
the plan copies. -/
theorem Reconcilable.effective (h : Reconcilable platform time sync source destination before)
    (hprepare : prepareSyncRunPlan platform sync
      (planBetween time source destination mode policy compareMode) = .ok runPlan)
    (hreads : ∀ listed ∈ source.listed time, listed.address.ReadsBack readCopySource) :
    runPlan.Effective readCopySource := by
  intro item hitem
  obtain ⟨planItem, hplan, haction, hrun⟩ := mem_runPlan_transfers hprepare hitem
  obtain ⟨listed, hlisted, hpath⟩ := listed_of_transfer hplan haction
  have hsource := h.transferRunItem_source hrun hlisted hpath
  refine effect_of_strategy (transferRunItem_ok hrun).2.2.2.2.2 ?_
  rw [hsource]
  exact hreads listed hlisted

/-- The copy of a planned transfer. -/
theorem Reconcilable.copy_mem (h : Reconcilable platform time sync source destination before)
    (hprepare : prepareSyncRunPlan platform sync
      (planBetween time source destination mode policy compareMode) = .ok runPlan)
    {item : SyncPlanItem} {listed : ListedObject}
    (hitem : item ∈ (planBetween time source destination mode policy compareMode).items)
    (haction : item.action.transfers = true) (hlisted : listed ∈ source.listed time)
    (hpath : listed.object.relativePath = item.relativePath) :
    ∃ runItem ∈ runPlan.transfers, runItem.source = listed.address ∧
      runItem.destination = destinationObject sync item.relativePath := by
  obtain ⟨runItem, hmem, hrun⟩ := forall₂_exists_right (prepareSyncRunPlan_ok hprepare).1
    (List.mem_filter.mpr ⟨hitem, haction⟩)
  exact ⟨runItem, hmem, h.transferRunItem_source hrun hlisted hpath,
    transferRunItem_destination h.destination_s3 hrun⟩

/-- The removal of a planned delete. -/
theorem Reconcilable.remove_mem (h : Reconcilable platform time sync source destination before)
    (hprepare : prepareSyncRunPlan platform sync
      (planBetween time source destination mode policy compareMode) = .ok runPlan)
    {item : SyncPlanItem}
    (hitem : item ∈ (planBetween time source destination mode policy compareMode).items)
    (haction : item.action.deletes = true) :
    ∃ runItem ∈ runPlan.deletes,
      runItem.destination = destinationObject sync item.relativePath := by
  obtain ⟨runItem, hmem, hrun⟩ := forall₂_exists_right (prepareSyncRunPlan_ok hprepare).2.1
    (List.mem_filter.mpr ⟨hitem, haction⟩)
  exact ⟨runItem, hmem, deleteRunItem_destination h.destination_s3 hrun⟩

theorem SyncRunPlan.copy_mem_operations {item : SyncRunItem} (hitem : item ∈ runPlan.transfers) :
    .copy item.source item.destination ∈ runPlan.operations :=
  List.mem_append_left _ (List.mem_map_of_mem (f := fun item : SyncRunItem =>
    StoreOp.copy item.source item.destination) hitem)

theorem SyncRunPlan.remove_mem_operations {item : SyncRunItem} (hitem : item ∈ runPlan.deletes) :
    .remove item.destination ∈ runPlan.operations :=
  List.mem_append_right _ (List.mem_map_of_mem (f := fun item : SyncRunItem =>
    StoreOp.remove item.destination) hitem)

section

variable {e : SyncExecutionState} {world : SyncWorld Content}

/-- The tasks handed out do no more than the plan. -/
theorem SyncWorld.Follows.operations_subperm
    (hfollows : world.Follows readCopySource start runPlan before e)
    (heffective : runPlan.Effective readCopySource) :
    (world.run.issued.flatMap (·.operations readCopySource)).Subperm runPlan.operations := by
  have hhandsOut := hfollows.coherent.accounted.handsOut
  rw [hfollows.coherent.plan_eq] at hhandsOut
  have hperm := operations_perm heffective hhandsOut
  refine hperm.subperm.trans (List.Sublist.subperm ?_)
  exact ((List.take_sublist _ _).map _).append ((List.take_sublist _ _).map _)

/-- Every operation of the plan is handed out once the queues are empty. -/
theorem SyncWorld.Follows.operations_perm
    (hfollows : world.Follows readCopySource start runPlan before e)
    (heffective : runPlan.Effective readCopySource) (htransfers : e.transfersIssued)
    (hdeletes : e.deletesIssued) :
    (world.run.issued.flatMap (·.operations readCopySource)).Perm runPlan.operations := by
  have hhandsOut := hfollows.coherent.accounted.handsOut
  unfold SyncExecutionState.transfersIssued at htransfers
  unfold SyncExecutionState.deletesIssued at hdeletes
  rw [hfollows.coherent.plan_eq] at hhandsOut htransfers hdeletes
  have hperm := AbixioUi.operations_perm heffective hhandsOut
  rwa [List.take_of_length_le htransfers, List.take_of_length_le hdeletes] at hperm

end

/-! ## Two buckets of one server -/

/-- One object to copy, and one to delete. -/
def twoBucketsRunPlan : SyncRunPlan where
  transfers :=
    [⟨"a".toList, .create, .s3 CURRENT_CONNECTION_ID "photos".toList "a".toList,
      .s3 CURRENT_CONNECTION_ID "backup".toList "a".toList, .serverSideCopy, 1⟩]
  deletes :=
    [⟨"b".toList, .delete, .s3 CURRENT_CONNECTION_ID "backup".toList "b".toList,
      .s3 CURRENT_CONNECTION_ID "backup".toList "b".toList, .deleteRemote, 2⟩]
  totalTransferBytes := 1
  totalDeleteBytes := 2
  hasClientRelay := false

def twoBucketsStart (deletePhase : SyncDeletePhase) : SyncState :=
  { twoBuckets with
    mode := .sync
    policy := { SyncPreset.converge.policy with deletePhase := deletePhase }
    runPlan := some twoBucketsRunPlan }

theorem twoBuckets_prepared (deletePhase : SyncDeletePhase) :
    prepareSyncRunPlan .unix twoBuckets (planBetween noTimes photosBucket backupBucket .sync
      (twoBucketsStart deletePhase).policy .sizeAndModTime) = .ok twoBucketsRunPlan := by
  cases deletePhase <;> rfl

theorem photosBucket_readsBack :
    ∀ listed ∈ photosBucket.listed noTimes,
      listed.address.ReadsBack plainNetwork.readCopySource := by
  intro listed hlisted
  have haddress : listed.address = .s3 CURRENT_CONNECTION_ID "photos".toList "a".toList := by
    revert listed
    decide
  rw [haddress]
  show plainNetwork.readCopySource _ = _
  decide

/-- Each task in turn is carried out and answered. -/
def oneByOne : List SyncWorldEvent :=
  [.carryOut 0 0, .deliver 0 (.ok ()), .carryOut 0 0, .deliver 0 (.ok ())]

/-- Every request is answered with success. -/
def allAnswered : TaskReplies where
  clients := .ok (some ⟨['a'], none, []⟩, some ⟨['a'], none, []⟩)
  item :=
    { brokenDownload with
      download := ⟨.ok (), .ok (), .ok (), .ok 0, .ok ()⟩
      upload := { refusedCompletion with completeMultipartUpload := .ok () } }
  fuel := 0
  deletes := ⟨.ok (), .ok []⟩

theorem SyncWorld.own_deliver {world : SyncWorld Content} {i : Nat} {answer : Except String Unit}
    {task : PendingSyncTask} (replies : TaskReplies) (htask : world.work.held[i]? = some (task, []))
    (hreturns : task.returns platform network replies = some answer) :
    world.Own platform network (.deliver i answer) := by
  intro entry hentry
  rw [htask] at hentry
  cases hentry
  exact ⟨replies, hreturns, fun op hop => by cases hop⟩

theorem oneByOne_own (deletePhase : SyncDeletePhase) :
    Along (SyncWorld.step plainNetwork.readCopySource) (SyncWorld.Own .unix plainNetwork)
      (SyncWorld.start plainNetwork.readCopySource (twoBucketsStart deletePhase)
        twoBucketStore) oneByOne := by
  cases deletePhase <;>
    exact ⟨trivial, SyncWorld.own_deliver allAnswered rfl rfl, trivial,
      SyncWorld.own_deliver allAnswered rfl rfl, trivial⟩

/-! ## At every moment -/

def SyncWorldEvent.runEvent : SyncWorldEvent → Option SyncRunEvent
  | .carryOut _ _ => none
  | .deliver index answer => some (.deliver index answer)
  | .edit after => some (.edit after)

/-- The run of a world is a run of the machine without the store. -/
theorem SyncWorld.run_run (world : SyncWorld Content) (events : List SyncWorldEvent) :
    (Foundation.run (SyncWorld.step readCopySource) world events).run =
      Foundation.run SyncRun.step world.run (events.filterMap SyncWorldEvent.runEvent) := by
  induction events generalizing world with
  | nil => rfl
  | cons event events ih =>
      rw [run_cons, ih]
      cases event <;> rfl

theorem SyncWorld.own_run {world : SyncWorld Content} {events : List SyncWorldEvent}
    (h : Along (SyncWorld.step readCopySource) (SyncWorld.Own platform network) world events) :
    Along SyncRun.step SyncRun.Own world.run (events.filterMap SyncWorldEvent.runEvent) := by
  induction events generalizing world with
  | nil => trivial
  | cons event events ih =>
      have hrest := ih h.2
      cases event with
      | carryOut i n => exact hrest
      | deliver i answer => exact ⟨trivial, hrest⟩
      | edit after => exact ⟨h.1, hrest⟩

/-- A run of the world is staged. -/
theorem SyncWorld.run_staged (before : Store TransferEndpoint Content)
    (hplan : start.runPlan = some runPlan) (hmode : start.mode ≠ .diff)
    (heffective : runPlan.Effective network.readCopySource) {events : List SyncWorldEvent}
    (hown : Along (SyncWorld.step network.readCopySource) (SyncWorld.Own platform network)
      (SyncWorld.start network.readCopySource start before) events) :
    ∃ e, (Foundation.run (SyncWorld.step network.readCopySource)
        (SyncWorld.start network.readCopySource start before) events).Follows
          network.readCopySource start runPlan before e ∧ Staged start e := by
  obtain ⟨e, hfollows⟩ := SyncWorld.run_holds before hplan hmode heffective hown
  obtain ⟨e', hcoherent, -, hstaged⟩ := SyncRun.run_stagedHolds hplan hmode
    (SyncWorld.own_run hown)
  have hsame : e' = e := by
    have hexec := hfollows.coherent.execution_eq
    rw [SyncWorld.run_run] at hexec
    exact Option.some.inj (hcoherent.execution_eq.symm.trans hexec)
  exact ⟨e, hfollows, hsame ▸ hstaged⟩

/-! ## A run without failures -/

section

variable {e : SyncExecutionState} {world : SyncWorld Content}

/-- With no failure counted, nothing was given up. -/
theorem SyncWorld.Follows.lost_eq_nil
    (hfollows : world.Follows readCopySource start runPlan before e)
    (htransfers : e.failedTransfers = 0) (hdeletes : e.failedDeletes = 0) :
    world.work.lost = [] := by
  refine List.eq_nil_iff_forall_not_mem.mpr fun op hop => ?_
  have hexcused := hfollows.excused op hop
  cases op with
  | copy source target =>
      rw [SyncExecutionState.Excuses, htransfers] at hexcused
      exact Nat.lt_irrefl 0 hexcused
  | remove target =>
      rw [SyncExecutionState.Excuses, hdeletes] at hexcused
      exact Nat.lt_irrefl 0 hexcused

/-- A run without failures and without tasks left has carried out its plan. -/
theorem SyncWorld.Follows.done_perm
    (hfollows : world.Follows readCopySource start runPlan before e) (hstaged : Staged start e)
    (heffective : runPlan.Effective readCopySource)
    (hcopy : start.mode = .copy → runPlan.deletes = []) (hidle : world.run.inFlight = [])
    (htransfers : e.failedTransfers = 0) (hdeletes : e.failedDeletes = 0) :
    world.work.done.Perm runPlan.operations := by
  have hdone : e.phase = .done := by
    rcases hfollows.busy with hdone | hstopped | hbusy
    · exact hdone
    · have hpos := hstaged.stopped hstopped
      omega
    · exact absurd hidle hbusy
  have hphased := hfollows.coherent.phased
  simp only [Phased, hdone] at hphased
  obtain ⟨-, -, hissued, -, hdeletesIssued, -⟩ := hphased
  have hskip : e.deletePhaseSkipped = false := by
    by_contra htold
    have hfailed := hstaged.failed_iff.mp (hstaged.skipped (by simpa using htold))
    omega
  have hall : e.deletesIssued := by
    rcases hfollows.coherent.total_eq with ⟨hmode, -⟩ | ⟨hmode, -⟩
    · exact deletesIssued_of_nil (hfollows.coherent.plan_eq ▸ hcopy hmode)
    · exact hdeletesIssued hmode hskip
  have hheld : world.work.held = [] := by
    have htasks := hfollows.tasks_eq
    rwa [hidle, List.map_eq_nil_iff] at htasks
  have hlost := hfollows.lost_eq_nil htransfers hdeletes
  exact (hfollows.accounts.settled hheld hlost).trans
    (hfollows.operations_perm heffective hissued hall)

end

/-- A copy plans no deletes. -/
theorem prepared_deletes_of_copy
    (hprepare : prepareSyncRunPlan platform sync
      (planBetween time source destination .copy policy compareMode) = .ok runPlan) :
    runPlan.deletes = [] := by
  refine List.eq_nil_iff_forall_not_mem.mpr fun item hitem => ?_
  obtain ⟨planItem, hplan, haction, -⟩ := mem_runPlan_deletes hprepare hitem
  obtain ⟨-, -, hdecision⟩ := buildSyncPlan_item_spec hplan
  rw [haction, planDecision_delete_iff] at hdecision
  exact hdecision.2.2.1 rfl

/-- Once a run has no task left and has counted no failure, the destination is reconciled
with the source, whatever the workers, the order of the requests and the order of their
results were. -/
theorem sync_reconciles_when_over
    (h : Reconcilable platform time sync source destination before)
    (hprepare : prepareSyncRunPlan platform sync
      (planBetween time source destination mode policy compareMode) = .ok runPlan)
    (hplan : start.runPlan = some runPlan) (hstart : start.mode = mode) (hmode : mode ≠ .diff)
    (hreads : ∀ listed ∈ source.listed time, listed.address.ReadsBack network.readCopySource)
    {events : List SyncWorldEvent}
    (hown : Along (SyncWorld.step network.readCopySource) (SyncWorld.Own platform network)
      (SyncWorld.start network.readCopySource start before) events) :
    let final := run (SyncWorld.step network.readCopySource)
      (SyncWorld.start network.readCopySource start before) events
    final.run.inFlight = [] →
      (∀ e, final.run.sync.execution = some e → e.failedTransfers = 0 ∧ e.failedDeletes = 0) →
      Reconciled time sync source
        (listObjectsRecursiveForSync sync.destinationPrefix destination.objects) mode policy
        (planBetween time source destination mode policy compareMode) before
        final.work.store := by
  intro final hidle hunfailed
  have heffective := h.effective hprepare hreads
  obtain ⟨e, hfollows, hstaged⟩ := SyncWorld.run_staged before hplan
    (hstart ▸ hmode) heffective hown
  obtain ⟨htransfers, hdeletes⟩ := hunfailed e hfollows.coherent.execution_eq
  have hcopy : start.mode = .copy → runPlan.deletes = [] := by
    intro hcopy
    rw [hstart] at hcopy
    subst hcopy
    exact prepared_deletes_of_copy hprepare
  have hops := hfollows.done_perm hstaged heffective hcopy hidle htransfers hdeletes
  rw [hfollows.accounts.store_eq]
  exact {
    converges := h.converges hprepare hops
    copies := h.copies hprepare hops
    unplanned := fun _ => h.after_unplanned hprepare hops }

theorem sync_reconciles_when_over_two_buckets :
    Reconciled noTimes twoBuckets photosBucket
      (listObjectsRecursiveForSync twoBuckets.destinationPrefix backupBucket.objects) .sync
      (twoBucketsStart .after).policy
      (planBetween noTimes photosBucket backupBucket .sync (twoBucketsStart .after).policy
        .sizeAndModTime) twoBucketStore
      (run (SyncWorld.step plainNetwork.readCopySource)
        (SyncWorld.start plainNetwork.readCopySource (twoBucketsStart .after) twoBucketStore)
        oneByOne).work.store := by
  have hplan : (twoBucketsStart .after).runPlan = some twoBucketsRunPlan := rfl
  refine sync_reconciles_when_over twoBuckets_reconcilable (twoBuckets_prepared .after) hplan rfl
    (by decide) photosBucket_readsBack (oneByOne_own .after) (by decide) fun e he => ?_
  have hcounts : ((run (SyncWorld.step plainNetwork.readCopySource)
      (SyncWorld.start plainNetwork.readCopySource (twoBucketsStart .after) twoBucketStore)
      oneByOne).run.sync.execution.map fun e => (e.failedTransfers, e.failedDeletes)) =
        some (0, 0) := by decide
  rw [he] at hcounts
  exact Prod.mk.inj (Option.some.inj hcounts)

/-! ## Copies and removals in order -/

section

variable {e : SyncExecutionState} {world : SyncWorld Content}

theorem SyncWorld.Follows.copy_done
    (hfollows : world.Follows readCopySource start runPlan before e)
    (heffective : runPlan.Effective readCopySource) (hissued : e.transfersIssued)
    (hidle : e.activeTransfers = 0) (hnone : e.failedTransfers = 0) {item : SyncRunItem}
    (hitem : item ∈ runPlan.transfers) :
    .copy item.source item.destination ∈ world.work.done := by
  have hhandsOut := hfollows.coherent.accounted.handsOut
  unfold SyncExecutionState.transfersIssued at hissued
  rw [hfollows.coherent.plan_eq] at hhandsOut hissued
  have hperm := AbixioUi.operations_perm heffective hhandsOut
  rw [List.take_of_length_le hissued] at hperm
  refine hfollows.accounts.mem_done ?_ ?_ ?_
  · refine hperm.mem_iff.mpr (List.mem_append_left _ ?_)
    exact List.mem_map_of_mem (f := fun item : SyncRunItem =>
      StoreOp.copy item.source item.destination) hitem
  · intro entry hentry hop
    have hflight : entry.1 ∈ world.run.inFlight := by
      rw [← hfollows.tasks_eq]
      exact List.mem_map_of_mem (f := fun entry : PendingSyncTask × _ => entry.1) hentry
    have hkind := hfollows.coherent.no_transfer_inFlight hidle entry.1 hflight
    cases htask : entry.1 with
    | transfer item' => simp [htask, PendingSyncTask.isTransfer] at hkind
    | deleteRemote connectionId bucket keys bytes label =>
        simp [htask, PendingSyncTask.operations] at hop
    | deleteLocal path bytes label => simp [htask, PendingSyncTask.operations] at hop
  · intro hlost
    have hexcused := hfollows.excused _ hlost
    rw [SyncExecutionState.Excuses, hnone] at hexcused
    exact Nat.lt_irrefl 0 hexcused

theorem SyncWorld.Follows.remove_done
    (hfollows : world.Follows readCopySource start runPlan before e)
    (heffective : runPlan.Effective readCopySource) (hissued : e.deletesIssued)
    (hidle : e.activeDeleteBatches = 0) (hnone : e.failedDeletes = 0) {item : SyncRunItem}
    (hitem : item ∈ runPlan.deletes) : .remove item.destination ∈ world.work.done := by
  have hhandsOut := hfollows.coherent.accounted.handsOut
  unfold SyncExecutionState.deletesIssued at hissued
  rw [hfollows.coherent.plan_eq] at hhandsOut hissued
  have hperm := AbixioUi.operations_perm heffective hhandsOut
  rw [List.take_of_length_le hissued] at hperm
  refine hfollows.accounts.mem_done ?_ ?_ ?_
  · refine hperm.mem_iff.mpr (List.mem_append_right _ ?_)
    exact List.mem_map_of_mem (f := fun item : SyncRunItem => StoreOp.remove item.destination)
      hitem
  · intro entry hentry hop
    have hwithin := hfollows.accounts.within entry hentry
    have hflight : entry.1 ∈ world.run.inFlight := by
      rw [← hfollows.tasks_eq]
      exact List.mem_map_of_mem (f := fun entry : PendingSyncTask × _ => entry.1) hentry
    have hkind := hfollows.coherent.no_delete_inFlight hidle entry.1 hflight
    cases htask : entry.1 with
    | transfer item' =>
        have hplanned := hfollows.coherent.transferItems_subset hwithin.1 item'
          (by simp [htask, PendingSyncTask.transferItems])
        simp [htask, PendingSyncTask.operations, heffective item' hplanned] at hop
    | deleteRemote connectionId bucket keys bytes label =>
        simp [htask, PendingSyncTask.isDelete, PendingSyncTask.isTransfer] at hkind
    | deleteLocal path bytes label =>
        simp [htask, PendingSyncTask.isDelete, PendingSyncTask.isTransfer] at hkind
  · intro hlost
    have hexcused := hfollows.excused _ hlost
    rw [SyncExecutionState.Excuses, hnone] at hexcused
    exact Nat.lt_irrefl 0 hexcused

/-- What has changed at the target of an operation was done by it. -/
theorem SyncWorld.Follows.done_of_changed
    (hfollows : world.Follows readCopySource start runPlan before e)
    (heffective : runPlan.Effective readCopySource)
    (hindependent : StoreOp.Independent runPlan.operations) {op : StoreOp TransferEndpoint}
    (hop : op ∈ runPlan.operations)
    (hchanged : world.work.store op.target ≠ before op.target) : op ∈ world.work.done :=
  ((hfollows.accounts.target_cases hindependent (hfollows.operations_subperm heffective)
    hop).resolve_left hchanged).1

/-- A removal that was done is one of a delete handed out. -/
theorem SyncWorld.Follows.delete_issued_of_done
    (hfollows : world.Follows readCopySource start runPlan before e)
    (heffective : runPlan.Effective readCopySource) {target : TransferEndpoint}
    (hdone : .remove target ∈ world.work.done) : ∃ task ∈ world.run.issued, task.isDelete := by
  obtain ⟨task, htask, hop⟩ :=
    List.mem_flatMap.mp (hfollows.accounts.done_subperm.subset hdone)
  refine ⟨task, htask, ?_⟩
  cases task with
  | transfer item =>
      have hplanned := hfollows.coherent.transferItems_subset htask item
        (by simp [PendingSyncTask.transferItems])
      simp [PendingSyncTask.operations, heffective item hplanned] at hop
  | deleteRemote connectionId bucket keys bytes label => rfl
  | deleteLocal path bytes label => rfl

theorem SyncWorld.Follows.transfer_issued_of_done
    (hfollows : world.Follows readCopySource start runPlan before e)
    {source target : TransferEndpoint} (hdone : .copy source target ∈ world.work.done) :
    ∃ task ∈ world.run.issued, task.isTransfer := by
  obtain ⟨task, htask, hop⟩ :=
    List.mem_flatMap.mp (hfollows.accounts.done_subperm.subset hdone)
  refine ⟨task, htask, ?_⟩
  cases task with
  | transfer item => rfl
  | deleteRemote connectionId bucket keys bytes label =>
      simp [PendingSyncTask.operations] at hop
  | deleteLocal path bytes label => simp [PendingSyncTask.operations] at hop

end

/-- A run that deletes last, errors not ignored: by the time the first object that was to be
deleted is gone, every object that was to be copied is at the destination. -/
theorem sync_removes_after_copies
    (h : Reconcilable platform time sync source destination before)
    (hprepare : prepareSyncRunPlan platform sync
      (planBetween time source destination mode policy compareMode) = .ok runPlan)
    (hplan : start.runPlan = some runPlan) (hmode : start.mode ≠ .diff)
    (hafter : start.policy.deletePhase = .after)
    (hignore : start.deleteGuardrails.ignoreErrors = false)
    (hreads : ∀ listed ∈ source.listed time, listed.address.ReadsBack network.readCopySource)
    {events : List SyncWorldEvent}
    (hown : Along (SyncWorld.step network.readCopySource) (SyncWorld.Own platform network)
      (SyncWorld.start network.readCopySource start before) events) :
    let store := (run (SyncWorld.step network.readCopySource)
      (SyncWorld.start network.readCopySource start before) events).work.store
    (∃ item ∈ (planBetween time source destination mode policy compareMode).items,
      item.action.deletes = true ∧
        store (destinationObject sync item.relativePath) ≠
          before (destinationObject sync item.relativePath)) →
    ∀ item ∈ (planBetween time source destination mode policy compareMode).items,
      item.action.transfers = true → ∀ listed ∈ source.listed time,
        listed.object.relativePath = item.relativePath →
        store (destinationObject sync item.relativePath) = before listed.address := by
  intro store hgone item hitem haction listed hlisted hpath
  have heffective := h.effective hprepare hreads
  have hindependent := h.independent hprepare
  obtain ⟨e, hfollows, hstaged⟩ := SyncWorld.run_staged before hplan hmode
    heffective hown
  have hsubperm := hfollows.operations_subperm heffective
  obtain ⟨gone, hgoneItem, hdeletes, hchanged⟩ := hgone
  obtain ⟨removed, hremoved, hdestination⟩ := h.remove_mem hprepare hgoneItem hdeletes
  rw [← hdestination] at hchanged
  have hremoval := hfollows.done_of_changed heffective hindependent
    (SyncRunPlan.remove_mem_operations hremoved) hchanged
  have hnext := hfollows.coherent.delete_issued
    (hfollows.delete_issued_of_done heffective hremoval)
  obtain ⟨hissued, hidle⟩ := hfollows.coherent.after hafter hnext
  have hnone := hstaged.after hafter hignore (.inl hnext)
  obtain ⟨runItem, hmem, hsource, htarget⟩ := h.copy_mem hprepare hitem haction hlisted hpath
  have hcopied := hfollows.copy_done heffective hissued hidle hnone hmem
  have hlanded := hfollows.accounts.landed hindependent hsubperm hcopied
  simpa only [StoreOp.target, StoreOp.outcome, hsource, htarget] using hlanded

theorem sync_removes_after_copies_two_buckets :
    (run (SyncWorld.step plainNetwork.readCopySource)
      (SyncWorld.start plainNetwork.readCopySource (twoBucketsStart .after) twoBucketStore)
      oneByOne).work.store (.s3 CURRENT_CONNECTION_ID "backup".toList "a".toList) = some 1 := by
  have hplan : (twoBucketsStart .after).runPlan = some twoBucketsRunPlan := rfl
  have hcopied := sync_removes_after_copies twoBuckets_reconcilable
    (twoBuckets_prepared .after) hplan (by decide) rfl rfl photosBucket_readsBack
    (oneByOne_own .after) (by decide)
  exact hcopied _ (List.mem_of_getElem? (i := 0) rfl) rfl _
    (List.mem_of_getElem? (i := 0) rfl) rfl

/-- A sync that deletes first, errors not ignored: by the time the first object is copied,
every object that was to be deleted is gone. -/
theorem sync_copies_after_removals
    (h : Reconcilable platform time sync source destination before)
    (hprepare : prepareSyncRunPlan platform sync
      (planBetween time source destination mode policy compareMode) = .ok runPlan)
    (hplan : start.runPlan = some runPlan) (hmode : start.mode = .sync)
    (hbefore : start.policy.deletePhase = .before)
    (hignore : start.deleteGuardrails.ignoreErrors = false)
    (hreads : ∀ listed ∈ source.listed time, listed.address.ReadsBack network.readCopySource)
    {events : List SyncWorldEvent}
    (hown : Along (SyncWorld.step network.readCopySource) (SyncWorld.Own platform network)
      (SyncWorld.start network.readCopySource start before) events) :
    let store := (run (SyncWorld.step network.readCopySource)
      (SyncWorld.start network.readCopySource start before) events).work.store
    (∃ item ∈ (planBetween time source destination mode policy compareMode).items,
      item.action.transfers = true ∧
        store (destinationObject sync item.relativePath) ≠
          before (destinationObject sync item.relativePath)) →
    ∀ item ∈ (planBetween time source destination mode policy compareMode).items,
      item.action.deletes = true →
        store (destinationObject sync item.relativePath) = none := by
  intro store hwritten item hitem haction
  have heffective := h.effective hprepare hreads
  have hindependent := h.independent hprepare
  have hdiff : start.mode ≠ .diff := by
    rw [hmode]
    decide
  obtain ⟨e, hfollows, hstaged⟩ := SyncWorld.run_staged before hplan hdiff
    heffective hown
  have hsubperm := hfollows.operations_subperm heffective
  obtain ⟨written, hwrittenItem, htransfers, hchanged⟩ := hwritten
  obtain ⟨listed, hlisted, hpath⟩ := listed_of_transfer hwrittenItem htransfers
  obtain ⟨copied, hcopied, -, hdestination⟩ :=
    h.copy_mem hprepare hwrittenItem htransfers hlisted hpath
  rw [← hdestination] at hchanged
  have hcopy := hfollows.done_of_changed heffective hindependent
    (SyncRunPlan.copy_mem_operations hcopied) hchanged
  have hnext := hfollows.coherent.transfer_issued (hfollows.transfer_issued_of_done hcopy)
  obtain ⟨hissued, hidle⟩ := hfollows.coherent.before (.inl hmode) hbefore hnext
  have hopen : e.phase ≠ .stopped := by
    intro hstopped
    have hphased := hfollows.coherent.phased
    simp only [Phased, hstopped] at hphased
    have hzero := hphased.2.1 hbefore
    omega
  have hnone := hstaged.before hbefore hignore hopen
  obtain ⟨runItem, hmem, htarget⟩ := h.remove_mem hprepare hitem haction
  have hremoved := hfollows.remove_done heffective hissued hidle hnone hmem
  have hlanded := hfollows.accounts.landed hindependent hsubperm hremoved
  simpa only [StoreOp.target, StoreOp.outcome, htarget] using hlanded

theorem sync_copies_after_removals_two_buckets :
    (run (SyncWorld.step plainNetwork.readCopySource)
      (SyncWorld.start plainNetwork.readCopySource (twoBucketsStart .before) twoBucketStore)
      oneByOne).work.store (.s3 CURRENT_CONNECTION_ID "backup".toList "b".toList) = none := by
  have hplan : (twoBucketsStart .before).runPlan = some twoBucketsRunPlan := rfl
  have hremoved := sync_copies_after_removals twoBuckets_reconcilable
    (twoBuckets_prepared .before) hplan rfl rfl rfl photosBucket_readsBack
    (oneByOne_own .before) (by decide)
  exact hremoved _ (List.mem_of_getElem? (i := 1) rfl) rfl

end AbixioUi
