import AbixioUi.Sync.Dispatch
import AbixioUi.Foundation.Loops

/-! # Delete batches partition the queue

Batches are taken from the queue of deletes until it is empty. The queue is cut into
consecutive groups of items, one for each batch: a local path by itself, and the keys of
one bucket for as long as the request limit allows.
-/

namespace AbixioUi

open Foundation

/-- The deletes not handed out yet. -/
def SyncExecutionState.deleteQueue (execution : SyncExecutionState) : List SyncRunItem :=
  execution.runPlan.deletes.drop execution.nextDeleteIndex

/-- The batch is a request for exactly these items. -/
def PendingSyncTask.IsBatchOf : PendingSyncTask → List SyncRunItem → Prop
  | .transfer _, _ => False
  | .deleteRemote connectionId bucket keys bytes _, items =>
      items.map (·.destination) = keys.map (.s3 connectionId bucket) ∧
        1 ≤ keys.length ∧ keys.length ≤ DELETE_BATCH_LIMIT ∧ bytes = itemBytes items % 2 ^ 64
  | .deleteLocal path bytes _, items =>
      ∃ item, items = [item] ∧ item.destination = .local path ∧ bytes = item.bytes

/-- One more target would fit into the batch. -/
def PendingSyncTask.HasRoomFor : PendingSyncTask → TransferEndpoint → Prop
  | .deleteRemote connectionId bucket keys _ _, target =>
      keys.length < DELETE_BATCH_LIMIT ∧ target.inBucket connectionId bucket
  | .transfer _, _ | .deleteLocal _ _ _, _ => False

/-- The batches cut the items into consecutive groups, each as large as it can be. -/
inductive DeletePartition : List SyncRunItem → List PendingSyncTask → Prop
  | nil : DeletePartition [] []
  | cons {batch : PendingSyncTask} {group rest : List SyncRunItem}
      {batches : List PendingSyncTask}
      (covers : batch.IsBatchOf group)
      (maximal : ∀ item ∈ rest.head?, ¬ batch.HasRoomFor item.destination)
      (later : DeletePartition rest batches) :
      DeletePartition (group ++ rest) (batch :: batches)

theorem PendingSyncTask.IsBatchOf.targets_eq {batch : PendingSyncTask}
    {group : List SyncRunItem} (h : batch.IsBatchOf group) :
    batch.deleteTargets = group.map (·.destination) := by
  cases batch with
  | transfer item => exact h.elim
  | deleteRemote connectionId bucket keys bytes label => exact h.1.symm
  | deleteLocal path bytes label =>
      obtain ⟨item, hgroup, hdest, -⟩ := h
      rw [hgroup, List.map_singleton, hdest]
      rfl

/-- Together the batches name every target once, in order. -/
theorem DeletePartition.targets_eq {items : List SyncRunItem} {batches : List PendingSyncTask}
    (h : DeletePartition items batches) :
    batches.flatMap (·.deleteTargets) = items.map (·.destination) := by
  induction h with
  | nil => rfl
  | cons covers maximal later ih =>
      rw [List.flatMap_cons, List.map_append, ih, covers.targets_eq]

/-! ## One batch -/

theorem nextDeleteBatchSpec_empty {execution : SyncExecutionState}
    (h : nextDeleteBatchSpec execution = none) : execution.deleteQueue = [] := by
  cases hqueue : execution.deleteQueue with
  | nil => rfl
  | cons first rest =>
      have hissued : ¬ execution.deletesIssued := by
        intro hissued
        rw [SyncExecutionState.deleteQueue, List.drop_eq_nil_of_le hissued] at hqueue
        cases hqueue
      obtain ⟨spec, next, n, hnext, -⟩ := nextDeleteBatchSpec_pulled hissued
      rw [h] at hnext
      cases hnext

/-- A batch is a maximal request for the front of the queue, and the rest stays. -/
theorem nextDeleteBatchSpec_taken {execution next : SyncExecutionState}
    {batch : PendingSyncTask} (h : nextDeleteBatchSpec execution = some (batch, next)) :
    ∃ group, execution.deleteQueue = group ++ next.deleteQueue ∧ batch.IsBatchOf group ∧
      ∀ item ∈ next.deleteQueue.head?, ¬ batch.HasRoomFor item.destination := by
  unfold nextDeleteBatchSpec at h
  split at h
  next => cases h
  next first hfirst =>
    obtain ⟨hlt, hget⟩ := List.getElem?_eq_some_iff.mp hfirst
    have hqueue : execution.deleteQueue =
        first :: execution.runPlan.deletes.drop (execution.nextDeleteIndex + 1) := by
      rw [SyncExecutionState.deleteQueue, List.drop_eq_getElem_cons hlt, hget]
    split at h
    next connectionId bucket key hdest =>
      obtain ⟨group, rest, keys, hsplit, heq, hmap, hlimit, hfull⟩ :=
        collectDeleteKeys_taken connectionId bucket execution.deleteQueue [] 0
      have hkeys : keys ≠ [] := by
        have hpos := collectDeleteKeys_pos
          (execution.runPlan.deletes.drop (execution.nextDeleteIndex + 1)) hdest
        rw [← hqueue, heq] at hpos
        exact hpos
      rw [SyncExecutionState.deleteQueue] at heq
      rw [heq, List.nil_append] at h
      cases h
      have hlength : group.length = keys.length := by
        simpa using congrArg List.length hmap
      have hrest : execution.runPlan.deletes.drop
          (execution.nextDeleteIndex + keys.length) = rest := by
        rw [← List.drop_drop, ← hlength]
        show execution.deleteQueue.drop group.length = rest
        rw [hsplit, List.drop_left]
      refine ⟨group, ?_, ⟨hmap, ?_, by simpa using hlimit, ?_⟩, ?_⟩
      · rw [hsplit]
        congr 1
        exact hrest.symm
      · exact List.length_pos_iff.mpr hkeys
      · exact sumU64_eq _
      · intro item hitem hroom
        rw [SyncExecutionState.deleteQueue, hrest] at hitem
        rcases hfull with hfull | hfull
        · exact Nat.not_le_of_lt hroom.1 hfull
        · exact hfull item hitem hroom.2
    next path hdest =>
      cases h
      refine ⟨[first], hqueue, ⟨first, rfl, hdest, rfl⟩, ?_⟩
      intro item hitem hroom
      exact hroom

theorem PendingSyncTask.IsBatchOf.ne_nil {batch : PendingSyncTask}
    {group : List SyncRunItem} (h : batch.IsBatchOf group) : group ≠ [] := by
  intro hnil
  rw [hnil] at h
  cases batch with
  | transfer item => exact h
  | deleteRemote connectionId bucket keys bytes label =>
      have hkeys : keys = [] := by simpa using h.1.symm
      have hpos := h.2.1
      rw [hkeys] at hpos
      exact Nat.not_succ_le_zero 0 hpos
  | deleteLocal path bytes label =>
      obtain ⟨item, hgroup, -⟩ := h
      cases hgroup

/-! ## All batches -/

/-- Taking batches until there is none ends, and they partition what was queued. -/
theorem deleteBatches_partition (execution : SyncExecutionState) :
    ∃ batches,
      (∀ fuel, execution.deleteQueue.length < fuel →
        repeated nextDeleteBatchSpec fuel execution = some batches) ∧
      batches.flatMap (·.deleteTargets) = execution.deleteQueue.map (·.destination) ∧
      DeletePartition execution.deleteQueue batches := by
  have hnone : ∀ execution, nextDeleteBatchSpec execution = none →
      DeletePartition execution.deleteQueue [] := by
    intro execution hnone
    rw [nextDeleteBatchSpec_empty hnone]
    exact .nil
  have hsome : ∀ execution batch next, nextDeleteBatchSpec execution = some (batch, next) →
      next.deleteQueue.length < execution.deleteQueue.length ∧
        ∀ batches, DeletePartition next.deleteQueue batches →
          DeletePartition execution.deleteQueue (batch :: batches) := by
    intro execution batch next hnext
    obtain ⟨group, hqueue, hcovers, hmaximal⟩ := nextDeleteBatchSpec_taken hnext
    have hpos := List.length_pos_iff.mpr hcovers.ne_nil
    rw [hqueue, List.length_append]
    exact ⟨by omega, fun batches hlater => .cons hcovers hmaximal hlater⟩
  obtain ⟨batches, hends, hpartition⟩ := repeated_ends
    (fun execution : SyncExecutionState => execution.deleteQueue.length)
    (fun execution => DeletePartition execution.deleteQueue) hnone hsome execution
  exact ⟨batches, hends, hpartition.targets_eq, hpartition⟩

/-- Two objects of `2 ^ 63` bytes in one bucket. -/
def twoHuge : SyncExecutionState :=
  .start .deletingBefore 0 ⟨[],
    [⟨['a'], .delete, .s3 ['c'] ['b'] ['a'], .s3 ['c'] ['b'] ['a'], .deleteRemote, 2 ^ 63⟩,
      ⟨['z'], .delete, .s3 ['c'] ['b'] ['z'], .s3 ['c'] ['b'] ['z'], .deleteRemote, 2 ^ 63⟩],
    0, 0, false⟩

/-- The bytes of their batch wrap around to none. -/
theorem deleteBatches_wrap :
    ∃ batch, repeated nextDeleteBatchSpec 3 twoHuge = some [batch] ∧
      batch.deleteTargets = twoHuge.deleteQueue.map (·.destination) ∧
      batch.bytes = 0 ∧ itemBytes twoHuge.deleteQueue = 2 ^ 64 :=
  ⟨.deleteRemote ['c'] ['b'] [['a'], ['z']] 0 ['b', '/', 'z'], by decide⟩

end AbixioUi
