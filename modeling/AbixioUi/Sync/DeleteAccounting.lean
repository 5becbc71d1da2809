import AbixioUi.Sync.RunOrder

/-! # What a run says about its deletes

A batch of deletes ends with one result for all of its keys. A ledger beside the run
keeps the items of every batch and what its requests reported for them, and the
counters of the run are compared with it.
-/

namespace AbixioUi

open Foundation

/-! ## The result of a batch -/

/-- What the requests of a task report: a batch delete the keys of its errors, any
other task whether it succeeded. -/
structure SyncReplies where
  done : Except String Unit
  deleteErrors : Except String (List (Option Str))

/-- The keys that failed; an error without a key is not listed. -/
def deleteObjects (errors : Except String (List (Option Str))) : Except String (List Str) :=
  errors.map fun keys => keys.filterMap id

/-- The result of a batch, given the keys that failed. -/
def deleteBatchResult (bucket : Str) (keys : List Str) (bytes : Nat) (label : Str)
    (reported : Except String (List Str)) : Except String SyncDeleteBatchResult := do
  let failed ← reported
  let completed := keys.length - failed.length
  if failed ≠ [] then
    .error ("failed to delete " ++ toString failed.length ++ " object(s) from " ++
      String.ofList bucket)
  else .ok ⟨completed, 0, bytes, label⟩

/-- The message a task ends with. -/
def PendingSyncTask.finish (replies : SyncReplies) : PendingSyncTask → SyncRunResult
  | .transfer item => .copyStepFinished (replies.done.map fun _ => item)
  | .deleteRemote _ bucket keys bytes label =>
      .deleteBatchFinished
        (deleteBatchResult bucket keys bytes label (deleteObjects replies.deleteErrors))
  | .deleteLocal _ bytes label =>
      .deleteBatchFinished (replies.done.map fun _ => ⟨1, 0, bytes, label⟩)

/-- The answer that the run takes from the reports of a task. -/
def PendingSyncTask.answer (replies : SyncReplies) : PendingSyncTask → Except String Unit
  | .transfer _ | .deleteLocal _ _ _ => replies.done
  | .deleteRemote _ bucket keys bytes label =>
      (deleteBatchResult bucket keys bytes label (deleteObjects replies.deleteErrors)).map
        fun _ => ()

/-- Nothing but the answer reaches the run. -/
theorem PendingSyncTask.intoTask_answer (replies : SyncReplies) (task : PendingSyncTask) :
    task.intoTask (task.answer replies) = task.finish replies := by
  cases task with
  | transfer item => rfl
  | deleteLocal path bytes label => rfl
  | deleteRemote connectionId bucket keys bytes label =>
      simp only [PendingSyncTask.answer, PendingSyncTask.finish, PendingSyncTask.intoTask]
      cases deleteObjects replies.deleteErrors with
      | error error => rfl
      | ok failed => cases failed <;> rfl

/-- The keys of a delete task that its requests report as failed. -/
def PendingSyncTask.reported (replies : SyncReplies) :
    PendingSyncTask → Except String (List Str)
  | .deleteRemote _ _ _ _ _ => deleteObjects replies.deleteErrors
  | .transfer _ | .deleteLocal _ _ _ => replies.done.map fun _ => []

/-! ## Answered batches -/

/-- The items of an answered delete task, and the keys reported as failed. -/
structure AnsweredDelete where
  items : List SyncRunItem
  reported : Except String (List Str)

def TransferEndpoint.listedIn (failed : List Str) : TransferEndpoint → Bool
  | .s3 _ _ key => failed.contains key
  | .local _ => false

/-- The items that were really deleted. -/
def AnsweredDelete.deleted (answer : AnsweredDelete) : List SyncRunItem :=
  match answer.reported with
  | .ok failed => answer.items.filter fun item => !item.destination.listedIn failed
  | .error _ => []

/-- Nothing is reported as failed. -/
def AnsweredDelete.whole (answer : AnsweredDelete) : Bool :=
  match answer.reported with
  | .ok [] => true
  | _ => false

/-- What the run counts as completed. -/
def AnsweredDelete.counted (answer : AnsweredDelete) : List SyncRunItem :=
  if answer.whole then answer.items else []

/-- The batch was wholly deleted, or is a single item that was not. -/
def AnsweredDelete.Exact (answer : AnsweredDelete) : Prop :=
  answer.whole = true ∨ answer.items.length = 1 ∧ answer.deleted = []

theorem AnsweredDelete.deleted_of_whole {answer : AnsweredDelete} (h : answer.whole = true) :
    answer.deleted = answer.items := by
  unfold AnsweredDelete.whole at h
  split at h
  next hreported =>
    unfold AnsweredDelete.deleted
    rw [hreported]
    refine List.filter_eq_self.mpr fun item _ => ?_
    cases item.destination <;> rfl
  next => cases h

/-- The items counted, and one failure for every batch that is not whole, never exceed
the items of the batches, and the items counted were all deleted. -/
theorem counted_le {answered : List AnsweredDelete} (hitems : ∀ a ∈ answered, a.items ≠ []) :
    (answered.flatMap (·.counted)).length + answered.countP (fun a => !a.whole) ≤
        (answered.map (·.items.length)).sum ∧
      (answered.flatMap (·.counted)).length ≤ (answered.flatMap (·.deleted)).length := by
  induction answered with
  | nil => simp
  | cons a answered ih =>
      obtain ⟨hsum, hdeleted⟩ := ih fun b hb => hitems b (List.mem_cons_of_mem _ hb)
      have hpos : 0 < a.items.length := List.length_pos_iff.mpr (hitems a List.mem_cons_self)
      simp only [List.flatMap_cons, List.length_append, List.countP_cons, List.map_cons,
        List.sum_cons]
      cases hwhole : a.whole with
      | true =>
          have hcounted : a.counted = a.items := by simp [AnsweredDelete.counted, hwhole]
          rw [hcounted, AnsweredDelete.deleted_of_whole hwhole]
          simp only [Bool.not_true, Bool.false_eq_true, if_false]
          omega
      | false =>
          have hcounted : a.counted = [] := by simp [AnsweredDelete.counted, hwhole]
          rw [hcounted]
          simp only [Bool.not_false, if_true, List.length_nil]
          omega

/-- Both bounds are reached exactly by batches that are counted exactly. -/
theorem counted_eq_iff {answered : List AnsweredDelete} (hitems : ∀ a ∈ answered, a.items ≠ []) :
    ((answered.flatMap (·.counted)).length + answered.countP (fun a => !a.whole) =
          (answered.map (·.items.length)).sum ∧
        (answered.flatMap (·.counted)).length = (answered.flatMap (·.deleted)).length) ↔
      ∀ a ∈ answered, a.Exact := by
  induction answered with
  | nil => simp
  | cons a answered ih =>
      have hrest : ∀ b ∈ answered, b.items ≠ [] := fun b hb => hitems b (List.mem_cons_of_mem _ hb)
      obtain ⟨hsum, hdeleted⟩ := counted_le hrest
      have hpos : 0 < a.items.length := List.length_pos_iff.mpr (hitems a List.mem_cons_self)
      rw [List.forall_mem_cons, ← ih hrest]
      simp only [List.flatMap_cons, List.length_append, List.countP_cons, List.map_cons,
        List.sum_cons, AnsweredDelete.Exact, ← List.length_eq_zero_iff]
      cases hwhole : a.whole with
      | true =>
          have hcounted : a.counted = a.items := by simp [AnsweredDelete.counted, hwhole]
          rw [hcounted, AnsweredDelete.deleted_of_whole hwhole]
          simp only [Bool.not_true, Bool.false_eq_true, if_false, true_or, true_and]
          omega
      | false =>
          have hcounted : a.counted = [] := by simp [AnsweredDelete.counted, hwhole]
          rw [hcounted]
          simp only [Bool.not_false, if_true, List.length_nil, Bool.false_eq_true, false_or]
          omega

/-- Exactly counted batches are counted as what they deleted. -/
theorem deleted_eq_counted {answered : List AnsweredDelete} (h : ∀ a ∈ answered, a.Exact) :
    answered.flatMap (·.deleted) = answered.flatMap (·.counted) := by
  induction answered with
  | nil => rfl
  | cons a answered ih =>
      obtain ⟨ha, hrest⟩ := List.forall_mem_cons.mp h
      rw [List.flatMap_cons, List.flatMap_cons, ih hrest]
      congr 1
      rcases ha with hwhole | ⟨-, hnone⟩
      · rw [AnsweredDelete.deleted_of_whole hwhole]
        simp [AnsweredDelete.counted, hwhole]
      · have hwhole : a.counted = [] ∨ a.items = a.deleted := by
          cases hw : a.whole with
          | true => exact .inr (AnsweredDelete.deleted_of_whole hw).symm
          | false => exact .inl (by simp [AnsweredDelete.counted, hw])
        rcases hwhole with hempty | hall
        · rw [hempty, hnone]
        · rw [hnone] at hall ⊢
          simp [AnsweredDelete.counted, hall]

/-! ## Items of the tasks -/

/-- Give every task its items from the front of the queue of deletes. -/
def assignItems : List PendingSyncTask → List SyncRunItem →
    List (PendingSyncTask × List SyncRunItem)
  | [], _ => []
  | task :: tasks, queue =>
      (task, queue.take task.deleteTargets.length) ::
        assignItems tasks (queue.drop task.deleteTargets.length)

/-- The items are the targets of the task, and the bytes of a delete are theirs. -/
structure Stands (task : PendingSyncTask) (items : List SyncRunItem) : Prop where
  targets_eq : task.deleteTargets = items.map (·.destination)
  bytes_eq : task.isDelete = true → task.bytes % 2 ^ 64 = itemBytes items % 2 ^ 64

theorem assignItems_fst (tasks : List PendingSyncTask) (queue : List SyncRunItem) :
    (assignItems tasks queue).map (·.1) = tasks := by
  induction tasks generalizing queue with
  | nil => rfl
  | cons task tasks ih => simp only [assignItems, List.map_cons, ih]

theorem assignItems_append (as bs : List PendingSyncTask) (queue : List SyncRunItem) :
    assignItems (as ++ bs) queue =
      assignItems as queue ++
        assignItems bs (queue.drop (as.flatMap (·.deleteTargets)).length) := by
  induction as generalizing queue with
  | nil => simp [assignItems]
  | cons a as ih =>
      simp only [List.cons_append, assignItems, ih, List.flatMap_cons, List.length_append,
        List.drop_drop]

theorem stands_transfer (item : SyncRunItem) : Stands (.transfer item) [] :=
  ⟨rfl, fun hdelete => by cases hdelete⟩

/-- The next delete task stands for the items at the front of its queue. -/
theorem nextDeleteBatchSpec_stands {e next : SyncExecutionState} {task : PendingSyncTask}
    (h : nextDeleteBatchSpec e = some (task, next)) :
    Stands task ((e.runPlan.deletes.drop e.nextDeleteIndex).take task.deleteTargets.length) ∧
      next.runPlan = e.runPlan ∧
      next.nextDeleteIndex = e.nextDeleteIndex + task.deleteTargets.length := by
  unfold nextDeleteBatchSpec at h
  split at h
  next => cases h
  next first hfirst =>
    split at h
    next connectionId bucket key hdest =>
      obtain ⟨n, keys, hn, hlen, heq, hmap⟩ := collectDeleteKeys_spec connectionId bucket
        (e.runPlan.deletes.drop e.nextDeleteIndex) [] 0
      rw [heq, List.nil_append] at h
      obtain ⟨rfl, rfl⟩ := Prod.mk.inj (Option.some.inj h)
      have hcount : (keys.map (TransferEndpoint.s3 connectionId bucket)).length = n := by
        rw [List.length_map, hlen]
      refine ⟨⟨?_, fun _ => ?_⟩, rfl, ?_⟩
      · simp only [PendingSyncTask.deleteTargets, hcount, hmap]
      · have hbytes := congrArg (· % 2 ^ 64) (sumU64_eq
          (((e.runPlan.deletes.drop e.nextDeleteIndex).take n).map (·.bytes)))
        simpa [PendingSyncTask.bytes, PendingSyncTask.deleteTargets, hlen, itemBytes, sumU64]
          using hbytes
      · simp only [PendingSyncTask.deleteTargets, List.length_map]
    next path hdest =>
      obtain ⟨rfl, rfl⟩ := Prod.mk.inj (Option.some.inj h)
      obtain ⟨hlt, rfl⟩ := List.getElem?_eq_some_iff.mp hfirst
      refine ⟨?_, rfl, rfl⟩
      have hone := take_one_drop hlt
      refine ⟨?_, fun _ => ?_⟩
      · simp [PendingSyncTask.deleteTargets, hone, hdest]
      · simp [PendingSyncTask.deleteTargets, PendingSyncTask.bytes, hone]

theorem startDeletes_stands (workers fuel : Nat) (e : SyncExecutionState) :
    ∀ held ∈ assignItems (startDeletes workers fuel e).2
        (e.runPlan.deletes.drop e.nextDeleteIndex),
      Stands held.1 held.2 := by
  induction fuel generalizing e with
  | zero => simp [startDeletes, assignItems]
  | succ fuel ih =>
      unfold startDeletes
      split
      next =>
        cases hnext : nextDeleteBatchSpec e with
        | none => simp [assignItems]
        | some pulled =>
            obtain ⟨task, next⟩ := pulled
            obtain ⟨hstands, hplan, hindex⟩ := nextDeleteBatchSpec_stands hnext
            have hrest := ih { next with activeDeleteBatches := next.activeDeleteBatches + 1 }
            simp only [assignItems, List.forall_mem_cons, List.drop_drop]
            refine ⟨hstands, ?_⟩
            rw [← hplan, ← hindex]
            exact hrest
      next => simp [assignItems]

theorem startTransfers_stands (workers fuel : Nat) (e : SyncExecutionState)
    (queue : List SyncRunItem) :
    (∀ held ∈ assignItems (startTransfers workers fuel e).2 queue, Stands held.1 held.2) ∧
      ((startTransfers workers fuel e).2.flatMap (·.deleteTargets)) = [] := by
  induction fuel generalizing e with
  | zero => simp [startTransfers, assignItems]
  | succ fuel ih =>
      unfold startTransfers
      split
      next =>
        cases hnext : nextTransferSpec e with
        | none => simp [assignItems]
        | some pulled =>
            obtain ⟨task, next⟩ := pulled
            obtain ⟨hrest, hnone⟩ := ih { next with activeTransfers := next.activeTransfers + 1 }
            obtain ⟨item, rfl⟩ : ∃ item, task = .transfer item := by
              unfold nextTransferSpec at hnext
              split at hnext
              next => cases hnext
              next item _ => exact ⟨item, (Prod.mk.inj (Option.some.inj hnext)).1.symm⟩
            simp only [assignItems, List.forall_mem_cons, List.flatMap_cons, hnone]
            exact ⟨⟨stands_transfer item, hrest⟩, rfl⟩
      next => simp [assignItems]

/-- Every task that a dispatch hands out stands for its items of the queue. -/
theorem dispatchSyncExecution_stands {sync : SyncState} {e : SyncExecutionState}
    (h : sync.execution = some e) :
    ∀ held ∈ assignItems (dispatchSyncExecution sync).2
        (e.runPlan.deletes.drop e.nextDeleteIndex),
      Stands held.1 held.2 := by
  have hloop : (phaseLoop sync PHASE_TURNS e).runPlan = e.runPlan ∧
      (phaseLoop sync PHASE_TURNS e).nextDeleteIndex = e.nextDeleteIndex := by
    refine phaseLoop_invariant
      (fun x => x.runPlan = e.runPlan ∧ x.nextDeleteIndex = e.nextDeleteIndex) ?_ PHASE_TURNS
      ⟨rfl, rfl⟩
    intro x x' hx hstep
    rcases phaseStep_cases hstep with ⟨-, -, -, rfl⟩ | ⟨-, -, -, hnext⟩ | ⟨-, -, -, rfl⟩
    · exact hx
    · rcases hnext with ⟨-, rfl⟩ | ⟨-, -, -, rfl⟩ | ⟨-, -, rfl⟩ <;> exact hx
    · exact hx
  have hphase : ∀ held ∈ assignItems (dispatchPhase sync (phaseLoop sync PHASE_TURNS e)).2.2
      (e.runPlan.deletes.drop e.nextDeleteIndex), Stands held.1 held.2 := by
    obtain ⟨hplan, hindex⟩ := hloop
    generalize phaseLoop sync PHASE_TURNS e = x at hplan hindex ⊢
    rw [← hplan, ← hindex]
    obtain ⟨htransfers, hnone⟩ := startTransfers_stands (transferWorkers sync)
      (x.runPlan.transfers.length - x.nextTransferIndex) x
      (x.runPlan.deletes.drop x.nextDeleteIndex)
    unfold dispatchPhase
    cases x.phase with
    | deletingBefore => exact startDeletes_stands _ _ x
    | copying => exact htransfers
    | deletingDuring =>
        obtain ⟨n, hpulled⟩ : ∃ n, Pulled x n 0 (dispatchTransfers sync x).2
          (dispatchTransfers sync x).1 := startTransfers_pulled _ _ x
        obtain ⟨hsame, hstill⟩ := hpulled.deletes_eq
        have hdeletes := startDeletes_stands (deleteWorkers sync)
          ((dispatchTransfers sync x).1.runPlan.deletes.length -
            (dispatchTransfers sync x).1.nextDeleteIndex) (dispatchTransfers sync x).1
        rw [hsame, hstill, Nat.add_zero] at hdeletes
        intro held hmem
        have hsplit := assignItems_append (dispatchTransfers sync x).2
          (dispatchDeletes sync (dispatchTransfers sync x).1).2
          (x.runPlan.deletes.drop x.nextDeleteIndex)
        rw [show ((dispatchTransfers sync x).2.flatMap (·.deleteTargets)) = [] from hnone] at hsplit
        rcases List.mem_append.mp (hsplit ▸ hmem) with hfirst | hsecond
        · exact htransfers held hfirst
        · refine hdeletes held ?_
          simpa [dispatchDeletes, hsame, hstill] using hsecond
    | deletingAfter => exact startDeletes_stands _ _ x
    | done => simp [assignItems]
    | stopped => simp [assignItems]
  unfold dispatchSyncExecution
  simp only [h]
  split
  next => simp [assignItems]
  next =>
    rcases hdispatch : dispatchPhase sync (phaseLoop sync PHASE_TURNS e) with ⟨stage, next, specs⟩
    rw [hdispatch] at hphase
    simp only
    split
    next => simp [assignItems]
    next => exact hphase

/-! ## The ledger -/

/-- A run with the items of its tasks in flight, the transfers that were done and the
delete tasks that were answered. -/
structure DeleteLedger where
  run : SyncRun
  held : List (PendingSyncTask × List SyncRunItem)
  transferred : List SyncRunItem
  answered : List AnsweredDelete

inductive DeleteLedgerEvent
  | deliver (index : Nat) (replies : SyncReplies)
  | edit (after : SyncState)

/-- The deletes that the run has not handed out. -/
def SyncRun.deletesLeft (run : SyncRun) : List SyncRunItem :=
  match run.sync.execution with
  | some e => e.runPlan.deletes.drop e.nextDeleteIndex
  | none => []

def DeleteLedger.step (ledger : DeleteLedger) : DeleteLedgerEvent → DeleteLedger
  | .deliver index replies =>
      match ledger.held[index]? with
      | none => ledger
      | some (task, items) =>
          let answer := task.answer replies
          let next := ledger.run.step (.deliver index answer)
          { run := next
            held := ledger.held.eraseIdx index ++
              assignItems (next.issued.drop ledger.run.issued.length) ledger.run.deletesLeft
            transferred := ledger.transferred ++ if answer.isOk then task.transferItems else []
            answered := ledger.answered ++
              if task.isDelete then [⟨items, task.reported replies⟩] else [] }
  | .edit after => { ledger with run := ledger.run.step (.edit after) }

def DeleteLedger.start (start : SyncState) : DeleteLedger :=
  let run := SyncRun.start start
  { run := run
    held := assignItems run.inFlight ((start.runPlan.map (·.deletes)).getD [])
    transferred := []
    answered := [] }

def DeleteLedger.Own (ledger : DeleteLedger) : DeleteLedgerEvent → Prop
  | .deliver _ _ => True
  | .edit after => KeepsRun ledger.run.sync after

/-- The items that were really deleted. -/
def DeleteLedger.deleted (ledger : DeleteLedger) : List SyncRunItem :=
  ledger.answered.flatMap (·.deleted)

/-- The counters of the run agree with the ledger: every delete that was handed out is
counted, as completed exactly if it was deleted, and so are the bytes. -/
structure DeleteLedger.Balanced (ledger : DeleteLedger) (e : SyncExecutionState) : Prop where
  handedOut_eq : e.completedDeletes + e.failedDeletes =
    (ledger.run.issued.flatMap (·.deleteTargets)).length
  completed_eq : e.completedDeletes = ledger.deleted.length
  bytes_eq : e.bytesDone =
    (itemBytes ledger.transferred + itemBytes ledger.deleted) % 2 ^ 64

/-- What the counters really count. -/
structure Ledgered (ledger : DeleteLedger) (e : SyncExecutionState) : Prop where
  held_eq : ledger.held.map (·.1) = ledger.run.inFlight
  stands : ∀ held ∈ ledger.held, Stands held.1 held.2
  filled : ∀ held ∈ ledger.held, held.1.isDelete = true → held.2 ≠ []
  items_ne : ∀ a ∈ ledger.answered, a.items ≠ []
  handedOut : (ledger.answered.map (·.items.length)).sum + (ledger.held.map (·.2.length)).sum =
    (ledger.run.issued.flatMap (·.deleteTargets)).length
  completed_eq : e.completedDeletes = (ledger.answered.flatMap (·.counted)).length
  failed_eq : e.failedDeletes = ledger.answered.countP (fun a => !a.whole)
  bytes_eq : e.bytesDone = (itemBytes ledger.transferred +
    itemBytes (ledger.answered.flatMap (·.counted))) % 2 ^ 64

theorem addU64_mod {a b c : Nat} (h : b % 2 ^ 64 = c % 2 ^ 64) :
    addU64 (a % 2 ^ 64) b = (a + c) % 2 ^ 64 := by
  rw [addU64, Nat.mod_add_mod, Nat.add_mod, h, ← Nat.add_mod]

/-- A batch succeeds for the run exactly if it was whole. -/
theorem isOk_answer_eq_whole {task : PendingSyncTask} (hdelete : task.isDelete = true)
    (replies : SyncReplies) (items : List SyncRunItem) :
    (task.answer replies).isOk = AnsweredDelete.whole ⟨items, task.reported replies⟩ := by
  cases task with
  | transfer item => cases hdelete
  | deleteRemote connectionId bucket keys bytes label =>
      simp only [PendingSyncTask.answer, PendingSyncTask.reported, AnsweredDelete.whole]
      cases deleteObjects replies.deleteErrors with
      | error error => rfl
      | ok failed => cases failed <;> rfl
  | deleteLocal path bytes label =>
      simp only [PendingSyncTask.answer, PendingSyncTask.reported, AnsweredDelete.whole]
      cases replies.done <;> rfl

/-- How a delete result is counted. -/
theorem resultHandled_delete (e : SyncExecutionState) (ignoreErrors : Bool)
    {task : PendingSyncTask} (hdelete : task.isDelete = true) (answer : Except String Unit) :
    (e.resultHandled ignoreErrors (task.intoTask answer)).completedDeletes =
        e.completedDeletes + (if answer.isOk then task.deleteTargets.length else 0) ∧
      (e.resultHandled ignoreErrors (task.intoTask answer)).failedDeletes =
        e.failedDeletes + (if answer.isOk then 0 else 1) ∧
      (e.resultHandled ignoreErrors (task.intoTask answer)).bytesDone =
        if answer.isOk then addU64 e.bytesDone task.bytes else e.bytesDone := by
  cases task with
  | transfer item => cases hdelete
  | deleteRemote connectionId bucket keys bytes label =>
      cases answer with
      | ok done =>
          refine ⟨?_, rfl, rfl⟩
          show _ = e.completedDeletes + (keys.map _).length
          rw [List.length_map]
          rfl
      | error message => exact ⟨rfl, rfl, rfl⟩
  | deleteLocal path bytes label => cases answer <;> exact ⟨rfl, rfl, rfl⟩

/-- How a transfer result is counted. -/
theorem resultHandled_transfer (e : SyncExecutionState) (ignoreErrors : Bool)
    {task : PendingSyncTask} (htransfer : task.isTransfer = true) (answer : Except String Unit) :
    (e.resultHandled ignoreErrors (task.intoTask answer)).completedDeletes =
        e.completedDeletes ∧
      (e.resultHandled ignoreErrors (task.intoTask answer)).failedDeletes = e.failedDeletes ∧
      (e.resultHandled ignoreErrors (task.intoTask answer)).bytesDone =
        if answer.isOk then addU64 e.bytesDone (itemBytes task.transferItems)
        else e.bytesDone := by
  cases task with
  | transfer item => cases answer <;> exact ⟨rfl, rfl, rfl⟩
  | deleteRemote _ _ _ _ _ | deleteLocal _ _ _ => cases htransfer

theorem sum_length_assignItems {tasks : List PendingSyncTask} {queue : List SyncRunItem}
    (h : ∀ held ∈ assignItems tasks queue, Stands held.1 held.2) :
    ((assignItems tasks queue).map (·.2.length)).sum =
      (tasks.flatMap (·.deleteTargets)).length := by
  induction tasks generalizing queue with
  | nil => rfl
  | cons task tasks ih =>
      obtain ⟨hstands, hrest⟩ := List.forall_mem_cons.mp h
      have hlen : (queue.take task.deleteTargets.length).length = task.deleteTargets.length := by
        have htargets := congrArg List.length hstands.targets_eq
        rw [List.length_map] at htargets
        exact htargets.symm
      simp only [assignItems, List.map_cons, List.sum_cons, ih hrest, List.flatMap_cons,
        List.length_append, hlen]

theorem resultHandled_nextDelete (e : SyncExecutionState) (ignoreErrors : Bool)
    (result : SyncRunResult) :
    (e.resultHandled ignoreErrors result).nextDeleteIndex = e.nextDeleteIndex := by
  rcases result with (_ | _) | (_ | _) <;> rfl

section

variable {start : SyncState} {runPlan : SyncRunPlan} {ledger : DeleteLedger}
  {e : SyncExecutionState}

/-- What an answer does to the run behind the ledger. -/
theorem DeleteLedger.deliver_run
    (hcoherent : Coherent start runPlan ledger.run.sync e ledger.run.issued ledger.run.inFlight)
    {i : Nat} {task : PendingSyncTask} (hi : ledger.run.inFlight[i]? = some task)
    (answer : Except String Unit) :
    ∃ specs next,
      (ledger.run.step (.deliver i answer)).sync.execution = some next ∧
      (ledger.run.step (.deliver i answer)).issued = ledger.run.issued ++ specs ∧
      (ledger.run.step (.deliver i answer)).inFlight = ledger.run.inFlight.eraseIdx i ++ specs ∧
      SameCounters
        (e.resultHandled ledger.run.sync.deleteGuardrails.ignoreErrors (task.intoTask answer))
        next ∧
      (∀ held ∈ assignItems specs ledger.run.deletesLeft,
        Stands held.1 held.2 ∧ (held.1.isDelete = true → held.2 ≠ [])) := by
  obtain ⟨telemetry, hhandle⟩ := handleRunResult_eq hcoherent.execution_eq (task.intoTask answer)
  have hsome := (hcoherent.answered hi answer telemetry).execution_eq
  obtain ⟨next, hd⟩ := dispatchSyncExecution_spec hsome
  obtain ⟨n, m, hpulled, -⟩ := hd.pulled
  have hstands := dispatchSyncExecution_stands hsome
  rw [(resultHandled_frame e _ _).1, resultHandled_nextDelete] at hstands
  have hleft : ledger.run.deletesLeft = e.runPlan.deletes.drop e.nextDeleteIndex := by
    simp only [SyncRun.deletesLeft, hcoherent.execution_eq]
  refine ⟨(handleRunResult ledger.run.sync (task.intoTask answer)).2, next, ?_, ?_, ?_,
    hd.sameCounters, ?_⟩
  · simp only [SyncRun.step, hi, hhandle]
    exact hd.execution_eq
  · simp only [SyncRun.step, hi]
  · simp only [SyncRun.step, hi]
  · rw [hleft, hhandle]
    intro held hmem
    refine ⟨hstands held hmem, fun hdelete hnil => ?_⟩
    have hspec := List.mem_map_of_mem (f := (·.1)) hmem
    rw [assignItems_fst] at hspec
    refine hpulled.handsOut.targets_ne held.1 hspec hdelete ?_
    rw [(hstands held hmem).targets_eq, hnil]
    rfl

/-- The counters after an answer, with what it adds to the ledger. -/
theorem Ledgered.counters_answered (h : Ledgered ledger e) {task : PendingSyncTask}
    {items : List SyncRunItem} (hstands : Stands task items) (ignoreErrors : Bool)
    (replies : SyncReplies) {answered : List AnsweredDelete}
    (hanswered : answered = if task.isDelete then [⟨items, task.reported replies⟩] else []) :
    (e.resultHandled ignoreErrors (task.intoTask (task.answer replies))).completedDeletes =
        ((ledger.answered ++ answered).flatMap (·.counted)).length ∧
      (e.resultHandled ignoreErrors (task.intoTask (task.answer replies))).failedDeletes =
        (ledger.answered ++ answered).countP (fun a => !a.whole) ∧
      (e.resultHandled ignoreErrors (task.intoTask (task.answer replies))).bytesDone =
        (itemBytes (ledger.transferred ++
            if (task.answer replies).isOk then task.transferItems else []) +
          itemBytes ((ledger.answered ++ answered).flatMap (·.counted))) % 2 ^ 64 := by
  subst hanswered
  cases hkind : task.isDelete with
  | true =>
      have hwhole := isOk_answer_eq_whole hkind replies items
      have hlen : task.deleteTargets.length = items.length := by
        rw [hstands.targets_eq, List.length_map]
      have hnone : task.transferItems = [] := by
        cases task with
        | transfer item => cases hkind
        | deleteRemote _ _ _ _ _ | deleteLocal _ _ _ => rfl
      obtain ⟨hcompleted, hfailed, hbytes⟩ :=
        resultHandled_delete e ignoreErrors hkind (task.answer replies)
      refine ⟨?_, ?_, ?_⟩
      · rw [hcompleted, hwhole, h.completed_eq, hlen]
        simp only [if_true, List.flatMap_append, List.length_append, List.flatMap_singleton,
          AnsweredDelete.counted]
        split <;> simp
      · rw [hfailed, hwhole, h.failed_eq]
        simp only [if_true, List.countP_append, List.countP_singleton]
        cases AnsweredDelete.whole ⟨items, task.reported replies⟩ <;> rfl
      · rw [hbytes, hwhole, h.bytes_eq, hnone]
        simp only [if_true, List.flatMap_append, List.flatMap_singleton, AnsweredDelete.counted,
          itemBytes_append, ite_self, List.append_nil]
        cases AnsweredDelete.whole ⟨items, task.reported replies⟩ with
        | true =>
            simp only [if_true]
            rw [addU64_mod (hstands.bytes_eq hkind), Nat.add_assoc]
        | false => simp
  | false =>
      have htransfer : task.isTransfer = true := by
        simpa [PendingSyncTask.isDelete] using hkind
      obtain ⟨hcompleted, hfailed, hbytes⟩ :=
        resultHandled_transfer e ignoreErrors htransfer (task.answer replies)
      simp only [Bool.false_eq_true, if_false, List.append_nil]
      refine ⟨hcompleted.trans h.completed_eq, hfailed.trans h.failed_eq, ?_⟩
      rw [hbytes, h.bytes_eq, itemBytes_append]
      cases (task.answer replies).isOk with
      | true =>
          simp only [if_true]
          rw [addU64_mod rfl, Nat.add_right_comm]
      | false => simp

/-- The items of a task in flight, and of those that stay. -/
theorem sum_length_eraseIdx {held : List (PendingSyncTask × List SyncRunItem)} {i : Nat}
    {task : PendingSyncTask} {items : List SyncRunItem} (hi : held[i]? = some (task, items)) :
    (held.map (·.2.length)).sum =
      items.length + ((held.eraseIdx i).map (·.2.length)).sum := by
  obtain ⟨hlt, hget⟩ := List.getElem?_eq_some_iff.mp hi
  have hperm := List.getElem_cons_eraseIdx_perm hlt
  rw [hget] at hperm
  have hmap := (hperm.map (·.2.length)).sum_nat
  rw [List.map_cons, List.sum_cons] at hmap
  exact hmap.symm

/-- An answer keeps the ledger. -/
theorem Ledgered.deliver (h : Ledgered ledger e)
    (hcoherent : Coherent start runPlan ledger.run.sync e ledger.run.issued ledger.run.inFlight)
    {i : Nat} {task : PendingSyncTask} {items : List SyncRunItem}
    (hi : ledger.held[i]? = some (task, items)) (replies : SyncReplies) :
    ∃ next, (ledger.step (.deliver i replies)).run.sync.execution = some next ∧
      Ledgered (ledger.step (.deliver i replies)) next := by
  have hflight : ledger.run.inFlight[i]? = some task := by
    rw [← h.held_eq, List.getElem?_map, hi]
    rfl
  obtain ⟨specs, next, hexec, hissued, hinFlight, hsame, hnew⟩ :=
    DeleteLedger.deliver_run hcoherent hflight (task.answer replies)
  have hmem : (task, items) ∈ ledger.held := List.mem_of_getElem? hi
  have hstands := h.stands _ hmem
  have hspecs : (ledger.run.step (.deliver i (task.answer replies))).issued.drop
      ledger.run.issued.length = specs := by
    rw [hissued, List.drop_left]
  have hstep : ledger.step (.deliver i replies) =
      { run := ledger.run.step (.deliver i (task.answer replies))
        held := ledger.held.eraseIdx i ++ assignItems specs ledger.run.deletesLeft
        transferred := ledger.transferred ++
          if (task.answer replies).isOk then task.transferItems else []
        answered := ledger.answered ++
          if task.isDelete then [⟨items, task.reported replies⟩] else [] } := by
    simp only [DeleteLedger.step, hi, hspecs]
  have hheld : (ledger.held.eraseIdx i ++ assignItems specs ledger.run.deletesLeft).map (·.1) =
      (ledger.run.step (.deliver i (task.answer replies))).inFlight := by
    rw [List.map_append, assignItems_fst, hinFlight, ← h.held_eq, List.eraseIdx_map]
  have hall : ∀ held ∈ ledger.held.eraseIdx i ++ assignItems specs ledger.run.deletesLeft,
      Stands held.1 held.2 ∧ (held.1.isDelete = true → held.2 ≠ []) := by
    intro held hmem
    rcases List.mem_append.mp hmem with hold | hspec
    · have hold := List.mem_of_mem_eraseIdx hold
      exact ⟨h.stands held hold, h.filled held hold⟩
    · exact hnew held hspec
  -- a transfer in flight stands for no deletes
  have hitems : ((if task.isDelete then [⟨items, task.reported replies⟩] else [] :
      List AnsweredDelete).map (·.items.length)).sum = items.length := by
    cases hkind : task.isDelete with
    | true => simp
    | false =>
        have hempty : items = [] := by
          cases task with
          | transfer item => simpa [PendingSyncTask.deleteTargets] using hstands.targets_eq
          | deleteRemote _ _ _ _ _ | deleteLocal _ _ _ => cases hkind
        simp [hempty]
  obtain ⟨hcompleted, hfailed, hbytes⟩ := h.counters_answered hstands
    ledger.run.sync.deleteGuardrails.ignoreErrors replies rfl
  refine ⟨next, by rw [hstep]; exact hexec, ?_⟩
  rw [hstep]
  refine ⟨hheld, fun held hmem => (hall held hmem).1, fun held hmem => (hall held hmem).2,
    ?_, ?_, hsame.completedDeletes_eq.trans hcompleted, hsame.failedDeletes_eq.trans hfailed,
    hsame.bytesDone_eq.trans hbytes⟩
  · intro a ha
    rcases List.mem_append.mp ha with hold | hanswered
    · exact h.items_ne a hold
    · split at hanswered
      next hkind =>
        rw [List.mem_singleton.mp hanswered]
        exact h.filled _ hmem hkind
      next => cases hanswered
  · have hadded := sum_length_assignItems fun held hmem => (hnew held hmem).1
    have hsum := sum_length_eraseIdx hi
    have hcount := h.handedOut
    simp only [hissued, List.map_append, List.sum_append, List.flatMap_append,
      List.length_append, hadded, hitems]
    omega

/-! ## Whole runs -/

/-- The run behind the ledger is coherent, and the ledger says what its counters count. -/
def DeleteLedger.Holds (start : SyncState) (runPlan : SyncRunPlan) (ledger : DeleteLedger) :
    Prop :=
  ∃ e, Coherent start runPlan ledger.run.sync e ledger.run.issued ledger.run.inFlight ∧
    Ledgered ledger e

theorem DeleteLedger.Holds.step (h : ledger.Holds start runPlan) {event : DeleteLedgerEvent}
    (hown : ledger.Own event) : (ledger.step event).Holds start runPlan := by
  obtain ⟨e, hcoherent, hledgered⟩ := h
  cases event with
  | edit after =>
      exact ⟨e, hcoherent.edited hown, hledgered.1, hledgered.2, hledgered.3, hledgered.4,
        hledgered.5, hledgered.6, hledgered.7, hledgered.8⟩
  | deliver i replies =>
      cases hi : ledger.held[i]? with
      | none =>
          have hsame : ledger.step (.deliver i replies) = ledger := by
            simp only [DeleteLedger.step, hi]
          rw [hsame]
          exact ⟨e, hcoherent, hledgered⟩
      | some held =>
          have hflight : ledger.run.inFlight[i]? = some held.1 := by
            rw [← hledgered.held_eq, List.getElem?_map, hi]
            rfl
          obtain ⟨next, hexec, hnext⟩ := hledgered.deliver hcoherent hi replies
          obtain ⟨_, _, next', -, -, -, -, -, -, hafter, -⟩ :=
            SyncRun.deliver_spec hcoherent hflight (held.1.answer replies)
          have hrun : (ledger.step (.deliver i replies)).run =
              ledger.run.step (.deliver i (held.1.answer replies)) := by
            simp only [DeleteLedger.step, hi]
          rw [← hrun] at hafter
          obtain rfl : next = next' :=
            Option.some.inj (hexec.symm.trans hafter.execution_eq)
          exact ⟨next, hafter, hnext⟩

theorem DeleteLedger.start_holds (hplan : start.runPlan = some runPlan)
    (hmode : start.mode ≠ .diff) : (DeleteLedger.start start).Holds start runPlan := by
  obtain ⟨e, hcoherent⟩ := coherent_start hplan hmode
  have hfresh := startExecution_fresh hplan hmode hcoherent.execution_eq
  obtain ⟨next, hd, hnext, -⟩ := hcoherent.dispatch
  obtain ⟨n, m, hpulled, -⟩ := hd.pulled
  have hsame := hd.sameCounters
  have hstands : ∀ held ∈ assignItems (dispatchSyncExecution (startExecution start)).2
      runPlan.deletes, Stands held.1 held.2 := by
    have hdispatched := dispatchSyncExecution_stands hcoherent.execution_eq
    rw [hfresh] at hdispatched
    exact hdispatched
  rw [hfresh] at hsame
  have hqueue : (start.runPlan.map (·.deletes)).getD [] = runPlan.deletes := by
    rw [hplan]
    rfl
  refine ⟨next, hnext, ?_, ?_, ?_, ?_, ?_, ?_, ?_, ?_⟩
  · exact assignItems_fst _ _
  · show ∀ held ∈ assignItems _ ((start.runPlan.map (·.deletes)).getD []), Stands held.1 held.2
    rw [hqueue]
    exact hstands
  · intro held hmem hdelete hnil
    have hspec := List.mem_map_of_mem (f := (·.1)) hmem
    rw [show (DeleteLedger.start start).held = assignItems _ _ from rfl, assignItems_fst] at hspec
    refine hpulled.handsOut.targets_ne held.1 hspec hdelete ?_
    have hstand : Stands held.1 held.2 := by
      refine hstands held ?_
      rw [← hqueue]
      exact hmem
    rw [hstand.targets_eq, hnil]
    rfl
  · exact fun a ha => absurd ha List.not_mem_nil
  · show 0 + ((assignItems _ ((start.runPlan.map (·.deletes)).getD [])).map
      (·.2.length)).sum = _
    rw [hqueue, Nat.zero_add]
    exact sum_length_assignItems hstands
  · exact hsame.completedDeletes_eq
  · exact hsame.failedDeletes_eq
  · exact hsame.bytesDone_eq

end

/-- While no delete batch is in flight, the counters balance exactly if every batch
answered so far was wholly deleted or is a single object that was not. -/
theorem deletes_balanced_iff {start : SyncState} {runPlan : SyncRunPlan}
    (hplan : start.runPlan = some runPlan) (hmode : start.mode ≠ .diff)
    {events : List DeleteLedgerEvent}
    (hown : Along DeleteLedger.step DeleteLedger.Own (DeleteLedger.start start) events) :
    let final := run DeleteLedger.step (DeleteLedger.start start) events
    ∃ e, final.run.sync.execution = some e ∧
      (e.activeDeleteBatches = 0 → (final.Balanced e ↔ ∀ a ∈ final.answered, a.Exact)) := by
  intro final
  obtain ⟨e, hcoherent, hledgered⟩ := run_invariant (DeleteLedger.Holds start runPlan)
    (fun _ _ h hown => h.step hown) (DeleteLedger.start_holds hplan hmode) hown
  refine ⟨e, hcoherent.execution_eq, fun hidle => ?_⟩
  have hheld : (final.held.map (·.2.length)).sum = 0 := by
    refine List.sum_eq_zero_iff_forall_eq_nat.mpr fun count hcount => ?_
    obtain ⟨held, hmem, rfl⟩ := List.mem_map.mp hcount
    have hflight : held.1 ∈ final.run.inFlight := by
      rw [← hledgered.held_eq]
      exact List.mem_map_of_mem hmem
    have htransfer := hcoherent.no_delete_inFlight hidle held.1 hflight
    have htargets := (hledgered.stands held hmem).targets_eq
    have hnone : held.1.deleteTargets = [] := by
      cases htask : held.1 with
      | transfer item => rfl
      | deleteRemote _ _ _ _ _ | deleteLocal _ _ _ => 
          rw [htask] at htransfer
          cases htransfer
    rw [hnone] at htargets
    rw [← List.length_map (f := (·.destination)), ← htargets]
    rfl
  have hhanded := hledgered.handedOut
  rw [hheld, Nat.add_zero] at hhanded
  have hexact := counted_eq_iff hledgered.items_ne
  constructor
  · intro hbalanced
    refine hexact.mp ⟨?_, ?_⟩
    · rw [hhanded, ← hbalanced.handedOut_eq, hledgered.completed_eq, hledgered.failed_eq]
    · rw [← hledgered.completed_eq, hbalanced.completed_eq]
      rfl
  · intro hall
    obtain ⟨hsum, hdeleted⟩ := hexact.mpr hall
    have hsame : final.deleted = final.answered.flatMap (·.counted) := deleted_eq_counted hall
    refine ⟨?_, ?_, ?_⟩
    · rw [hledgered.completed_eq, hledgered.failed_eq, hsum, hhanded]
    · rw [hledgered.completed_eq, hsame]
    · rw [hledgered.bytes_eq, hsame]

/-- The second of two keys fails. -/
def oneKeyFails : SyncReplies where
  done := .ok ()
  deleteErrors := .ok [some ['y']]

theorem deletes_balanced_iff_one_batch :
    ∃ e, (run DeleteLedger.step (DeleteLedger.start deletesThenCopy)
        [.deliver 0 oneKeyFails]).run.sync.execution = some e ∧
      (e.activeDeleteBatches = 0 →
        ((run DeleteLedger.step (DeleteLedger.start deletesThenCopy)
            [.deliver 0 oneKeyFails]).Balanced e ↔
          ∀ a ∈ (run DeleteLedger.step (DeleteLedger.start deletesThenCopy)
            [.deliver 0 oneKeyFails]).answered, a.Exact)) := by
  have hplan : deletesThenCopy.runPlan = some twoDeletesPlan := rfl
  have hown : Along DeleteLedger.step DeleteLedger.Own (DeleteLedger.start deletesThenCopy)
      [.deliver 0 oneKeyFails] := ⟨trivial, trivial⟩
  exact deletes_balanced_iff hplan (by decide) hown

/-- A batch of two keys of which one fails counts as a single failure, and its deleted
key is not counted at all. -/
theorem partial_batch_unbalanced :
    ¬ ∀ (start : SyncState) (runPlan : SyncRunPlan), start.runPlan = some runPlan →
      start.mode ≠ .diff → ∀ events,
        Along DeleteLedger.step DeleteLedger.Own (DeleteLedger.start start) events →
          ∀ e, (run DeleteLedger.step (DeleteLedger.start start) events).run.sync.execution =
              some e →
            e.activeDeleteBatches = 0 →
              (run DeleteLedger.step (DeleteLedger.start start) events).Balanced e := by
  intro h
  have hown : Along DeleteLedger.step DeleteLedger.Own (DeleteLedger.start deletesThenCopy)
      [.deliver 0 oneKeyFails] := ⟨trivial, trivial⟩
  have hfields : (run DeleteLedger.step (DeleteLedger.start deletesThenCopy)
      [.deliver 0 oneKeyFails]).run.sync.execution.map
        (fun e => (e.activeDeleteBatches, e.completedDeletes)) = some (0, 0) := by decide
  obtain ⟨e, hexec, hcounts⟩ := Option.map_eq_some_iff.mp hfields
  obtain ⟨hidle, hcompleted⟩ := Prod.mk.inj hcounts
  have hbalanced := (h deletesThenCopy twoDeletesPlan rfl (by decide) _ hown e hexec
    hidle).completed_eq
  have hdeleted : (run DeleteLedger.step (DeleteLedger.start deletesThenCopy)
      [.deliver 0 oneKeyFails]).deleted.length = 1 := by decide
  rw [hcompleted, hdeleted] at hbalanced
  cases hbalanced

end AbixioUi
