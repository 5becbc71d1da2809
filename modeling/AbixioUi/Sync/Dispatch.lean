import AbixioUi.Sync.Execution

/-! # What a dispatch hands out

The phase loop moves the phase only and stops where no phase can be left. The
worker loops move the queue positions and the active counters only, and the tasks
they hand out are the next items of the queues.
-/

namespace AbixioUi

open Foundation

/-! ## Tasks and the items they stand for -/

def PendingSyncTask.transferItems : PendingSyncTask → List SyncRunItem
  | .transfer item => [item]
  | .deleteRemote _ _ _ _ _ | .deleteLocal _ _ _ => []

def PendingSyncTask.deleteTargets : PendingSyncTask → List TransferEndpoint
  | .transfer _ => []
  | .deleteRemote connectionId bucket keys _ _ => keys.map (.s3 connectionId bucket)
  | .deleteLocal path _ _ => [.local path]

def PendingSyncTask.isTransfer : PendingSyncTask → Bool
  | .transfer _ => true
  | .deleteRemote _ _ _ _ _ | .deleteLocal _ _ _ => false

def PendingSyncTask.isDelete (task : PendingSyncTask) : Bool := !task.isTransfer

def PendingSyncTask.bytes : PendingSyncTask → Nat
  | .transfer item => item.bytes
  | .deleteRemote _ _ _ bytes _ | .deleteLocal _ bytes _ => bytes

/-- The bytes of a list of items. -/
def itemBytes (items : List SyncRunItem) : Nat := (items.map (·.bytes)).sum

@[simp] theorem itemBytes_nil : itemBytes [] = 0 := rfl

@[simp] theorem itemBytes_cons (item : SyncRunItem) (items : List SyncRunItem) :
    itemBytes (item :: items) = item.bytes + itemBytes items := by
  simp [itemBytes]

@[simp] theorem itemBytes_append (as bs : List SyncRunItem) :
    itemBytes (as ++ bs) = itemBytes as + itemBytes bs := by
  simp [itemBytes]

theorem itemBytes_take_drop_le (items : List SyncRunItem) (i n : Nat) :
    itemBytes ((items.drop i).take n) ≤ itemBytes items := by
  have hsplit : items = items.take i ++ ((items.drop i).take n ++ (items.drop i).drop n) := by
    simp
  have hsum := congrArg itemBytes hsplit
  simp only [itemBytes_append] at hsum
  omega

/-- The tasks stand for exactly these transfers and deletes, in order. -/
structure HandsOut (specs : List PendingSyncTask) (transfers deletes : List SyncRunItem) :
    Prop where
  transfers_eq : specs.flatMap (·.transferItems) = transfers
  deletes_eq : specs.flatMap (·.deleteTargets) = deletes.map (·.destination)
  targets_ne : ∀ task ∈ specs, task.isDelete → task.deleteTargets ≠ []
  bytes_eq : itemBytes deletes < 2 ^ 64 →
    (specs.map (·.bytes)).sum = itemBytes transfers + itemBytes deletes

theorem HandsOut.nil : HandsOut [] [] [] := ⟨rfl, rfl, by simp, fun _ => rfl⟩

theorem HandsOut.append {s₁ s₂ : List PendingSyncTask} {t₁ t₂ d₁ d₂ : List SyncRunItem}
    (h₁ : HandsOut s₁ t₁ d₁) (h₂ : HandsOut s₂ t₂ d₂) :
    HandsOut (s₁ ++ s₂) (t₁ ++ t₂) (d₁ ++ d₂) := by
  refine ⟨?_, ?_, ?_, ?_⟩
  · rw [List.flatMap_append, h₁.transfers_eq, h₂.transfers_eq]
  · rw [List.flatMap_append, h₁.deletes_eq, h₂.deletes_eq, List.map_append]
  · intro task hmem
    rcases List.mem_append.mp hmem with hmem | hmem
    · exact h₁.targets_ne task hmem
    · exact h₂.targets_ne task hmem
  · intro hbytes
    rw [itemBytes_append] at hbytes
    have hfirst := h₁.bytes_eq (by omega)
    have hsecond := h₂.bytes_eq (by omega)
    rw [List.map_append, List.sum_append, itemBytes_append, itemBytes_append]
    omega

theorem PendingSyncTask.length_transferItems (task : PendingSyncTask) :
    task.transferItems.length = if task.isTransfer then 1 else 0 := by
  cases task <;> rfl

theorem countP_isTransfer (specs : List PendingSyncTask) :
    specs.countP (·.isTransfer) = (specs.flatMap (·.transferItems)).length := by
  induction specs with
  | nil => rfl
  | cons spec specs ih =>
      rw [List.countP_cons, ih, List.flatMap_cons, List.length_append,
        spec.length_transferItems]
      omega

theorem HandsOut.countP_eq {specs : List PendingSyncTask} {transfers deletes : List SyncRunItem}
    (h : HandsOut specs transfers deletes) :
    specs.countP (·.isTransfer) = transfers.length := by
  rw [countP_isTransfer, h.transfers_eq]

/-! ## Pulling from the queues -/

/-- The tasks pulled are the next transfers and the next deletes; only the queue
positions, the active counters and what is reported to the user move. -/
structure Pulled (execution : SyncExecutionState) (transfers deletes : Nat)
    (specs : List PendingSyncTask) (next : SyncExecutionState) : Prop where
  next_eq : ∃ running item strategy summary, next =
    { execution with
      nextTransferIndex := execution.nextTransferIndex + transfers
      nextDeleteIndex := execution.nextDeleteIndex + deletes
      activeTransfers := execution.activeTransfers + specs.countP (·.isTransfer)
      activeDeleteBatches := execution.activeDeleteBatches + specs.countP (·.isDelete)
      running := running
      currentItem := item
      currentStrategy := strategy
      summary := summary }
  handsOut : HandsOut specs
    ((execution.runPlan.transfers.drop execution.nextTransferIndex).take transfers)
    ((execution.runPlan.deletes.drop execution.nextDeleteIndex).take deletes)
  transfers_le : transfers ≤ execution.runPlan.transfers.length - execution.nextTransferIndex
  deletes_le : deletes ≤ execution.runPlan.deletes.length - execution.nextDeleteIndex

theorem Pulled.report (e : SyncExecutionState) (running : Bool) (item : Option Str)
    (strategy : Option SyncExecutionStrategy) (summary : Option String) :
    Pulled e 0 0 []
      { e with
        running := running
        currentItem := item
        currentStrategy := strategy
        summary := summary } :=
  ⟨⟨_, _, _, _, rfl⟩, by simpa using HandsOut.nil, Nat.zero_le _, Nat.zero_le _⟩

theorem Pulled.refl (e : SyncExecutionState) : Pulled e 0 0 [] e :=
  Pulled.report e e.running e.currentItem e.currentStrategy e.summary

theorem Pulled.trans {e₁ e₂ e₃ : SyncExecutionState} {n₁ m₁ n₂ m₂ : Nat}
    {s₁ s₂ : List PendingSyncTask} (h₁ : Pulled e₁ n₁ m₁ s₁ e₂) (h₂ : Pulled e₂ n₂ m₂ s₂ e₃) :
    Pulled e₁ (n₁ + n₂) (m₁ + m₂) (s₁ ++ s₂) e₃ := by
  obtain ⟨⟨_, _, _, _, rfl⟩, hand₁, ht₁, hd₁⟩ := h₁
  obtain ⟨⟨running, item, strategy, summary, rfl⟩, hand₂, ht₂, hd₂⟩ := h₂
  refine ⟨⟨running, item, strategy, summary, ?_⟩, ?_, ?_, ?_⟩
  · simp [List.countP_append, Nat.add_assoc]
  · have hand := hand₁.append hand₂
    rwa [← List.drop_drop, ← List.take_add, ← List.drop_drop, ← List.take_add] at hand
  · simp only at ht₂
    omega
  · simp only at hd₂
    omega

theorem Pulled.deletes_eq {e e' : SyncExecutionState} {n m : Nat}
    {specs : List PendingSyncTask} (h : Pulled e n m specs e') :
    e'.runPlan = e.runPlan ∧ e'.nextDeleteIndex = e.nextDeleteIndex + m := by
  obtain ⟨_, _, _, _, rfl⟩ := h.next_eq
  exact ⟨rfl, rfl⟩

theorem Pulled.activeTransfers_eq {e e' : SyncExecutionState} {n m : Nat}
    {specs : List PendingSyncTask} (h : Pulled e n m specs e') :
    e'.activeTransfers = e.activeTransfers + specs.countP (·.isTransfer) := by
  obtain ⟨_, _, _, _, rfl⟩ := h.next_eq
  rfl

theorem Pulled.activeDeleteBatches_eq {e e' : SyncExecutionState} {n m : Nat}
    {specs : List PendingSyncTask} (h : Pulled e n m specs e') :
    e'.activeDeleteBatches = e.activeDeleteBatches + specs.countP (·.isDelete) := by
  obtain ⟨_, _, _, _, rfl⟩ := h.next_eq
  rfl

theorem Pulled.countP_transfers {e e' : SyncExecutionState} {n m : Nat}
    {specs : List PendingSyncTask} (h : Pulled e n m specs e') :
    specs.countP (·.isTransfer) = n := by
  have hle := h.transfers_le
  rw [h.handsOut.countP_eq, List.length_take, List.length_drop]
  omega

theorem take_one_drop {items : List SyncRunItem} {i : Nat} (h : i < items.length) :
    (items.drop i).take 1 = [items[i]] := by
  rw [List.drop_eq_getElem_cons h]
  rfl

/-! ## Transfers -/

theorem nextTransferSpec_pulled {execution : SyncExecutionState}
    (h : ¬ execution.transfersIssued) :
    ∃ spec next, nextTransferSpec execution = some (spec, next) ∧ spec.isTransfer ∧
      Pulled execution 1 0 [spec]
        { next with activeTransfers := next.activeTransfers + 1 } := by
  have hlt : execution.nextTransferIndex < execution.runPlan.transfers.length :=
    Nat.lt_of_not_le h
  have hget := List.getElem?_eq_getElem hlt
  refine ⟨_, _, by simp [nextTransferSpec, hget]; exact ⟨rfl, rfl⟩, rfl, ?_⟩
  refine ⟨⟨_, _, _, _, rfl⟩, ?_, by omega, Nat.zero_le _⟩
  rw [take_one_drop hlt]
  refine ⟨rfl, rfl, ?_, by simp [PendingSyncTask.bytes]⟩
  simp [PendingSyncTask.isDelete, PendingSyncTask.isTransfer]

theorem startTransfers_pulled (workers fuel : Nat) (execution : SyncExecutionState) :
    ∃ n, Pulled execution n 0 (startTransfers workers fuel execution).2
      (startTransfers workers fuel execution).1 := by
  induction fuel generalizing execution with
  | zero => exact ⟨0, Pulled.refl execution⟩
  | succ fuel ih =>
      unfold startTransfers
      split
      next hbusy =>
        obtain ⟨spec, next, hnext, -, hpulled⟩ := nextTransferSpec_pulled hbusy.2
        obtain ⟨n, hrest⟩ := ih { next with activeTransfers := next.activeTransfers + 1 }
        rw [hnext]
        exact ⟨1 + n, hpulled.trans hrest⟩
      next => exact ⟨0, Pulled.refl execution⟩

theorem startTransfers_countP_isDelete (workers fuel : Nat) (execution : SyncExecutionState) :
    (startTransfers workers fuel execution).2.countP (·.isDelete) = 0 := by
  induction fuel generalizing execution with
  | zero => rfl
  | succ fuel ih =>
      unfold startTransfers
      split
      next hbusy =>
        obtain ⟨spec, next, hnext, htransfer, -⟩ := nextTransferSpec_pulled hbusy.2
        rw [hnext]
        show List.countP (·.isDelete) (spec :: _) = 0
        rw [List.countP_cons, ih]
        simp [PendingSyncTask.isDelete, htransfer]
      next => rfl

theorem startTransfers_active_le (workers fuel : Nat) {execution : SyncExecutionState}
    (h : execution.activeTransfers ≤ workers) :
    (startTransfers workers fuel execution).1.activeTransfers ≤ workers := by
  induction fuel generalizing execution with
  | zero => exact h
  | succ fuel ih =>
      unfold startTransfers
      split
      next hbusy =>
        obtain ⟨spec, next, hnext, -, hpulled⟩ := nextTransferSpec_pulled hbusy.2
        rw [hnext]
        apply ih
        rw [hpulled.activeTransfers_eq, hpulled.countP_transfers]
        omega
      next => exact h

theorem startTransfers_ne_nil {workers fuel : Nat} {execution : SyncExecutionState}
    (hfuel : 0 < fuel) (hfree : execution.activeTransfers < workers)
    (hqueue : ¬ execution.transfersIssued) :
    (startTransfers workers fuel execution).2 ≠ [] := by
  obtain ⟨spec, next, hnext, -⟩ := nextTransferSpec_pulled hqueue
  obtain ⟨fuel, rfl⟩ := Nat.exists_eq_succ_of_ne_zero (Nat.pos_iff_ne_zero.mp hfuel)
  simp [startTransfers, hfree, hqueue, hnext]

/-! ## Delete batches -/

def TransferEndpoint.inBucket (connectionId bucket : Str) : TransferEndpoint → Prop
  | .s3 ownConnection ownBucket _ => ownConnection = connectionId ∧ ownBucket = bucket
  | .local _ => False

/-- A batch takes items to one bucket from the front, until it is full or the next item
goes elsewhere. -/
theorem collectDeleteKeys_taken (connectionId bucket : Str) (items : List SyncRunItem)
    (keys : List Str) (bytes : Nat) :
    ∃ batch rest newKeys, items = batch ++ rest ∧
      collectDeleteKeys connectionId bucket items keys bytes =
        (keys ++ newKeys, (batch.map (·.bytes)).foldl addU64 bytes) ∧
      batch.map (·.destination) = newKeys.map (.s3 connectionId bucket) ∧
      (keys ++ newKeys).length ≤ max keys.length DELETE_BATCH_LIMIT ∧
      (DELETE_BATCH_LIMIT ≤ (keys ++ newKeys).length ∨
        ∀ item ∈ rest.head?, ¬ item.destination.inBucket connectionId bucket) := by
  have hnone : (keys ++ []).length ≤ max keys.length DELETE_BATCH_LIMIT := by
    rw [List.append_nil]
    exact Nat.le_max_left _ _
  induction items generalizing keys bytes with
  | nil => exact ⟨[], [], [], rfl, by simp [collectDeleteKeys], rfl, hnone, by simp⟩
  | cons item items ih =>
      by_cases hroom : keys.length < DELETE_BATCH_LIMIT
      · cases hdest : item.destination with
        | s3 ownConnection ownBucket key =>
            by_cases hsame : ownConnection = connectionId ∧ ownBucket = bucket
            · obtain ⟨batch, rest, newKeys, hitems, heq, hmap, hlimit, hfull⟩ :=
                ih (keys ++ [key]) (addU64 bytes item.bytes)
                  (by rw [List.append_nil]; exact Nat.le_max_left _ _)
              rw [List.append_assoc, List.singleton_append] at heq hlimit hfull
              refine ⟨item :: batch, rest, key :: newKeys, by simp [hitems], ?_, ?_, ?_, hfull⟩
              · simp only [collectDeleteKeys, if_pos hroom, hdest, if_pos hsame, heq,
                  List.map_cons, List.foldl_cons]
              · rw [List.map_cons, List.map_cons, hmap, hdest, hsame.1, hsame.2]
              · have hkeys : (keys ++ [key]).length = keys.length + 1 := by simp
                omega
            · refine ⟨[], item :: items, [], rfl, ?_, rfl, hnone, .inr ?_⟩
              · simp only [collectDeleteKeys, if_pos hroom, hdest, if_neg hsame,
                  List.append_nil, List.map_nil, List.foldl_nil]
              · simpa [hdest, TransferEndpoint.inBucket] using hsame
        | «local» path =>
            refine ⟨[], item :: items, [], rfl, ?_, rfl, hnone, .inr ?_⟩
            · simp only [collectDeleteKeys, if_pos hroom, hdest, List.append_nil,
                List.map_nil, List.foldl_nil]
            · simp [hdest, TransferEndpoint.inBucket]
      · refine ⟨[], item :: items, [], rfl, ?_, rfl, hnone, .inl (by simpa using hroom)⟩
        simp only [collectDeleteKeys, if_neg hroom, List.append_nil, List.map_nil,
          List.foldl_nil]

/-- A batch collects a prefix of the items, all in one bucket. -/
theorem collectDeleteKeys_spec (connectionId bucket : Str) (items : List SyncRunItem)
    (keys : List Str) (bytes : Nat) :
    ∃ n newKeys, n ≤ items.length ∧ newKeys.length = n ∧
      collectDeleteKeys connectionId bucket items keys bytes =
        (keys ++ newKeys, ((items.take n).map (·.bytes)).foldl addU64 bytes) ∧
      (items.take n).map (·.destination) = newKeys.map (.s3 connectionId bucket) := by
  obtain ⟨batch, rest, newKeys, hitems, heq, hmap, -, -⟩ :=
    collectDeleteKeys_taken connectionId bucket items keys bytes
  have hlength : newKeys.length = batch.length := by
    simpa using (congrArg List.length hmap).symm
  have htake : items.take newKeys.length = batch := by
    rw [hitems, hlength, List.take_left]
  refine ⟨newKeys.length, newKeys, ?_, rfl, ?_, ?_⟩
  · rw [hitems, hlength, List.length_append]
    omega
  · rw [htake]
    exact heq
  · rw [htake]
    exact hmap

theorem nextDeleteBatchSpec_eq_none {execution : SyncExecutionState}
    (h : execution.deletesIssued) : nextDeleteBatchSpec execution = none := by
  have hget : execution.runPlan.deletes[execution.nextDeleteIndex]? = none :=
    List.getElem?_eq_none h
  simp [nextDeleteBatchSpec, hget]

/-- The first item of a queue with a remote target always enters the batch. -/
theorem collectDeleteKeys_pos {connectionId bucket key : Str} {item : SyncRunItem}
    (items : List SyncRunItem) (hdest : item.destination = .s3 connectionId bucket key) :
    (collectDeleteKeys connectionId bucket (item :: items) [] 0).1 ≠ [] := by
  obtain ⟨n, newKeys, -, -, heq, -⟩ :=
    collectDeleteKeys_spec connectionId bucket items ([] ++ [key]) (addU64 0 item.bytes)
  have hroom : ([] : List Str).length < DELETE_BATCH_LIMIT := by decide
  simp only [collectDeleteKeys, if_pos hroom, hdest, and_self, if_true, heq]
  simp

theorem nextDeleteBatchSpec_pulled {execution : SyncExecutionState}
    (h : ¬ execution.deletesIssued) :
    ∃ spec next n, nextDeleteBatchSpec execution = some (spec, next) ∧ 0 < n ∧
      spec.isDelete ∧
      Pulled execution 0 n [spec]
        { next with activeDeleteBatches := next.activeDeleteBatches + 1 } := by
  have hlt : execution.nextDeleteIndex < execution.runPlan.deletes.length :=
    Nat.lt_of_not_le h
  have hget := List.getElem?_eq_getElem hlt
  have hdrop := List.drop_eq_getElem_cons hlt
  cases hdest : execution.runPlan.deletes[execution.nextDeleteIndex].destination with
  | s3 connectionId bucket key =>
      obtain ⟨n, keys, hn, hlen, heq, hmap⟩ := collectDeleteKeys_spec connectionId bucket
        (execution.runPlan.deletes.drop execution.nextDeleteIndex) [] 0
      have hkeys : keys ≠ [] := by
        have hfirst := collectDeleteKeys_pos
          (execution.runPlan.deletes.drop (execution.nextDeleteIndex + 1)) hdest
        rw [← hdrop, heq] at hfirst
        simpa using hfirst
      refine ⟨_, _, n, by simp [nextDeleteBatchSpec, hget, hdest, heq]; exact ⟨rfl, rfl⟩,
        ?_, rfl, ?_⟩
      · rw [← hlen]
        exact List.length_pos_iff.mpr hkeys
      · refine ⟨⟨_, _, _, _, by rw [← hlen]; rfl⟩, ?_, Nat.zero_le _, by simpa using hn⟩
        refine ⟨rfl, by simpa [PendingSyncTask.deleteTargets] using hmap.symm,
          by simp [PendingSyncTask.deleteTargets, hkeys], ?_⟩
        intro hbytes
        have hsum := sumU64_of_lt hbytes
        simpa [PendingSyncTask.bytes, itemBytes, sumU64] using hsum
  | «local» path =>
      refine ⟨_, _, 1, by simp [nextDeleteBatchSpec, hget, hdest]; exact ⟨rfl, rfl⟩,
        Nat.one_pos, rfl, ?_⟩
      refine ⟨⟨_, _, _, _, rfl⟩, ?_, Nat.zero_le _, by omega⟩
      rw [take_one_drop hlt]
      exact ⟨rfl, by simp [PendingSyncTask.deleteTargets, hdest],
        by simp [PendingSyncTask.deleteTargets], by simp [PendingSyncTask.bytes]⟩

theorem startDeletes_pulled (workers fuel : Nat) (execution : SyncExecutionState) :
    ∃ n, Pulled execution 0 n (startDeletes workers fuel execution).2
      (startDeletes workers fuel execution).1 := by
  induction fuel generalizing execution with
  | zero => exact ⟨0, Pulled.refl execution⟩
  | succ fuel ih =>
      unfold startDeletes
      split
      next =>
        by_cases hqueue : execution.deletesIssued
        · rw [nextDeleteBatchSpec_eq_none hqueue]
          exact ⟨0, Pulled.refl execution⟩
        · obtain ⟨spec, next, n, hnext, -, -, hpulled⟩ := nextDeleteBatchSpec_pulled hqueue
          obtain ⟨m, hrest⟩ :=
            ih { next with activeDeleteBatches := next.activeDeleteBatches + 1 }
          rw [hnext]
          exact ⟨n + m, hpulled.trans hrest⟩
      next => exact ⟨0, Pulled.refl execution⟩

theorem startDeletes_active_le (workers fuel : Nat) {execution : SyncExecutionState}
    (h : execution.activeDeleteBatches ≤ workers) :
    (startDeletes workers fuel execution).1.activeDeleteBatches ≤ workers := by
  induction fuel generalizing execution with
  | zero => exact h
  | succ fuel ih =>
      unfold startDeletes
      split
      next hbusy =>
        by_cases hqueue : execution.deletesIssued
        · rw [nextDeleteBatchSpec_eq_none hqueue]
          exact h
        · obtain ⟨spec, next, n, hnext, -, hdelete, hpulled⟩ :=
            nextDeleteBatchSpec_pulled hqueue
          have hcount : List.countP (·.isDelete) [spec] = 1 := by simp [hdelete]
          rw [hnext]
          apply ih
          rw [hpulled.activeDeleteBatches_eq, hcount]
          omega
      next => exact h

theorem startDeletes_ne_nil {workers fuel : Nat} {execution : SyncExecutionState}
    (hfuel : 0 < fuel) (hfree : execution.activeDeleteBatches < workers)
    (hqueue : ¬ execution.deletesIssued) :
    (startDeletes workers fuel execution).2 ≠ [] := by
  obtain ⟨spec, next, n, hnext, -⟩ := nextDeleteBatchSpec_pulled hqueue
  obtain ⟨fuel, rfl⟩ := Nat.exists_eq_succ_of_ne_zero (Nat.pos_iff_ne_zero.mp hfuel)
  simp [startDeletes, hfree, hnext]

/-! ## The phase loop -/

/-- Everything one turn of the phase loop can do. -/
theorem phaseStep_cases {sync : SyncState} {e e' : SyncExecutionState}
    (h : phaseStep sync e = some e') :
    (e.phase = .deletingBefore ∧ e.activeDeleteBatches = 0 ∧ e.deletesIssued ∧
      e' = { e with phase := .copying }) ∨
    (e.phase = .copying ∧ e.activeTransfers = 0 ∧ e.transfersIssued ∧
      ((sync.mode = .copy ∨ e.runPlan.deletes = []) ∧ e' = { e with phase := .done } ∨
        sync.mode ≠ .copy ∧ e.transferFailed = true ∧
          sync.deleteGuardrails.ignoreErrors = false ∧
          e' = { e with deletePhaseSkipped := true, phase := .done } ∨
        sync.mode ≠ .copy ∧
          ¬ (e.transferFailed = true ∧ sync.deleteGuardrails.ignoreErrors = false) ∧
          e' = { e with phase := phaseAfterTransfers sync.policy.deletePhase })) ∨
    ((e.phase = .deletingDuring ∧ e.activeTransfers = 0 ∧ e.transfersIssued ∨
        e.phase = .deletingAfter) ∧ e.activeDeleteBatches = 0 ∧ e.deletesIssued ∧
      e' = { e with phase := .done }) := by
  unfold phaseStep at h
  cases hphase : e.phase with
  | deletingBefore =>
      simp only [hphase] at h
      split at h
      next hdone =>
        obtain ⟨hactive, hissued⟩ := hdone
        exact .inl ⟨rfl, hactive, hissued, (Option.some.inj h).symm⟩
      next => cases h
  | copying =>
      simp only [hphase] at h
      split at h
      next => cases h
      next hdone =>
        rw [not_or, not_not] at hdone
        refine .inr (.inl ⟨rfl, by omega, hdone.2, ?_⟩)
        split at h
        next hcopy => exact .inl ⟨.inl hcopy, (Option.some.inj h).symm⟩
        next hcopy =>
          split at h
          next hnil => exact .inl ⟨.inr hnil, (Option.some.inj h).symm⟩
          next =>
            split at h
            next hfailed =>
              exact .inr (.inl ⟨hcopy, hfailed.1, hfailed.2, (Option.some.inj h).symm⟩)
            next hfailed => exact .inr (.inr ⟨hcopy, hfailed, (Option.some.inj h).symm⟩)
  | deletingDuring =>
      simp only [hphase] at h
      split at h
      next hdone =>
        obtain ⟨⟨hactive, hissued⟩, hdeletes⟩ := hdone
        exact .inr (.inr ⟨.inl ⟨rfl, hactive, hissued⟩, hdeletes.1, hdeletes.2,
          (Option.some.inj h).symm⟩)
      next => cases h
  | deletingAfter =>
      simp only [hphase] at h
      split at h
      next hdone =>
        exact .inr (.inr ⟨.inr rfl, hdone.1, hdone.2, (Option.some.inj h).symm⟩)
      next => cases h
  | done => simp [hphase] at h
  | stopped => simp [hphase] at h

theorem pos_or_not_of_not_and {n : Nat} {p : Prop} (h : ¬ (n = 0 ∧ p)) : 0 < n ∨ ¬ p := by
  rcases not_and_or.mp h with hn | hp
  · exact .inl (Nat.pos_of_ne_zero hn)
  · exact .inr hp

/-- What keeps a phase that the loop does not leave open. -/
theorem phaseStep_eq_none {sync : SyncState} {e : SyncExecutionState}
    (h : phaseStep sync e = none) :
    (e.phase = .deletingBefore ∨ e.phase = .deletingAfter →
      0 < e.activeDeleteBatches ∨ ¬ e.deletesIssued) ∧
    (e.phase = .copying → 0 < e.activeTransfers ∨ ¬ e.transfersIssued) ∧
    (e.phase = .deletingDuring → (0 < e.activeTransfers ∨ ¬ e.transfersIssued) ∨
      0 < e.activeDeleteBatches ∨ ¬ e.deletesIssued) := by
  unfold phaseStep at h
  cases hphase : e.phase with
  | deletingBefore =>
      simp only [hphase] at h
      split at h
      next => cases h
      next hopen => exact ⟨fun _ => pos_or_not_of_not_and hopen, by simp, by simp⟩
  | copying =>
      simp only [hphase] at h
      split at h
      next hopen => exact ⟨by simp, fun _ => hopen, by simp⟩
      next =>
        split at h
        next => cases h
        next =>
          split at h
          next => cases h
          next => split at h <;> cases h
  | deletingDuring =>
      simp only [hphase] at h
      split at h
      next => cases h
      next hopen =>
        refine ⟨by simp, by simp, fun _ => ?_⟩
        rcases not_and_or.mp hopen with htransfers | hdeletes
        · exact .inl (pos_or_not_of_not_and htransfers)
        · exact .inr (pos_or_not_of_not_and hdeletes)
  | deletingAfter =>
      simp only [hphase] at h
      split at h
      next => cases h
      next hopen => exact ⟨fun _ => pos_or_not_of_not_and hopen, by simp, by simp⟩
  | done => simp
  | stopped => simp

/-- How many turns the phase loop can still take. -/
def SyncExecutionPhase.turnsLeft : SyncExecutionPhase → Nat
  | .deletingBefore => 3
  | .copying => 2
  | .deletingDuring | .deletingAfter => 1
  | .done | .stopped => 0

theorem turnsLeft_phaseAfterTransfers (deletePhase : SyncDeletePhase) :
    (phaseAfterTransfers deletePhase).turnsLeft ≤ 1 := by
  cases deletePhase <;> decide

theorem phaseStep_turnsLeft {sync : SyncState} {e e' : SyncExecutionState}
    (h : phaseStep sync e = some e') : e'.phase.turnsLeft < e.phase.turnsLeft := by
  have hafter := turnsLeft_phaseAfterTransfers sync.policy.deletePhase
  rcases phaseStep_cases h with ⟨hp, -, -, rfl⟩ | ⟨hp, -, -, hnext⟩ | ⟨hp, -, -, rfl⟩
  · rw [hp]
    show 2 < 3
    omega
  · rw [hp]
    rcases hnext with ⟨-, rfl⟩ | ⟨-, -, -, rfl⟩ | ⟨-, -, rfl⟩
    · show 0 < 2
      omega
    · show 0 < 2
      omega
    · show (phaseAfterTransfers sync.policy.deletePhase).turnsLeft < 2
      omega
  · have hone : e.phase.turnsLeft = 1 := by
      rcases hp with ⟨hp, -, -⟩ | hp <;> rw [hp] <;> rfl
    show 0 < e.phase.turnsLeft
    omega

/-- The loop stops where no turn is left to take. -/
theorem phaseStep_phaseLoop (sync : SyncState) (e : SyncExecutionState) :
    phaseStep sync (phaseLoop sync PHASE_TURNS e) = none := by
  have key : ∀ fuel e, e.phase.turnsLeft < fuel →
      phaseStep sync (phaseLoop sync fuel e) = none := by
    intro fuel
    induction fuel with
    | zero =>
        intro e h
        omega
    | succ fuel ih =>
        intro e h
        unfold phaseLoop
        cases hstep : phaseStep sync e with
        | none => exact hstep
        | some next =>
            have hless := phaseStep_turnsLeft hstep
            exact ih next (by omega)
  apply key
  cases e.phase <;> decide

/-- What every turn preserves, the phase loop preserves. -/
theorem phaseLoop_invariant {sync : SyncState} (Inv : SyncExecutionState → Prop)
    (hstep : ∀ e e', Inv e → phaseStep sync e = some e' → Inv e')
    (fuel : Nat) {e : SyncExecutionState} (h : Inv e) : Inv (phaseLoop sync fuel e) := by
  induction fuel generalizing e with
  | zero => exact h
  | succ fuel ih =>
      unfold phaseLoop
      cases hnext : phaseStep sync e with
      | none => exact h
      | some next => exact ih (hstep e next h hnext)

/-! ## A dispatch -/

theorem transferWorkers_pos (sync : SyncState) : 0 < transferWorkers sync := by
  unfold transferWorkers
  cases h : parseTransferWorkers sync.tuning.transferWorkersText with
  | error e => exact Nat.succ_pos 3
  | ok value => exact parsePositive_pos h

theorem deleteWorkers_pos (sync : SyncState) : 0 < deleteWorkers sync := by
  unfold deleteWorkers
  cases h : parseDeleteWorkers sync.deleteGuardrails.deleteWorkersText with
  | error e => exact Nat.succ_pos 3
  | ok value => exact parsePositive_pos h

/-- What a phase hands out: its own kind of work, from the front of the queues. -/
theorem dispatchPhase_pulled (sync : SyncState) (e : SyncExecutionState) :
    ∃ n m, Pulled e n m (dispatchPhase sync e).2.2 (dispatchPhase sync e).2.1 ∧
      (e.phase = .copying → m = 0 ∧ (dispatchPhase sync e).2.2.countP (·.isDelete) = 0) ∧
      (e.phase = .deletingBefore ∨ e.phase = .deletingAfter → n = 0) := by
  obtain ⟨n, htransfers⟩ := startTransfers_pulled (transferWorkers sync)
    (e.runPlan.transfers.length - e.nextTransferIndex) e
  obtain ⟨m, hdeletes⟩ := startDeletes_pulled (deleteWorkers sync)
    (e.runPlan.deletes.length - e.nextDeleteIndex) e
  unfold dispatchPhase
  cases hphase : e.phase with
  | deletingBefore => exact ⟨0, m, hdeletes, by simp, fun _ => rfl⟩
  | copying =>
      refine ⟨n, 0, htransfers, fun _ => ⟨rfl, ?_⟩, by simp⟩
      exact startTransfers_countP_isDelete _ _ e
  | deletingDuring =>
      obtain ⟨k, hboth⟩ := startDeletes_pulled (deleteWorkers sync)
        ((dispatchTransfers sync e).1.runPlan.deletes.length -
          (dispatchTransfers sync e).1.nextDeleteIndex) (dispatchTransfers sync e).1
      exact ⟨n + 0, 0 + k, htransfers.trans hboth, by simp, by simp⟩
  | deletingAfter => exact ⟨0, m, hdeletes, by simp, fun _ => rfl⟩
  | done => exact ⟨0, 0, Pulled.refl e, by simp, by simp⟩
  | stopped => exact ⟨0, 0, Pulled.refl e, by simp, by simp⟩

theorem dispatchPhase_active_le (sync : SyncState) {e : SyncExecutionState}
    (htransfers : e.activeTransfers ≤ transferWorkers sync)
    (hdeletes : e.activeDeleteBatches ≤ deleteWorkers sync) :
    (dispatchPhase sync e).2.1.activeTransfers ≤ transferWorkers sync ∧
      (dispatchPhase sync e).2.1.activeDeleteBatches ≤ deleteWorkers sync := by
  obtain ⟨n, hpulledT⟩ := startTransfers_pulled (transferWorkers sync)
    (e.runPlan.transfers.length - e.nextTransferIndex) e
  obtain ⟨m, hpulledD⟩ := startDeletes_pulled (deleteWorkers sync)
    (e.runPlan.deletes.length - e.nextDeleteIndex) e
  have hcountD := startTransfers_countP_isDelete (transferWorkers sync)
    (e.runPlan.transfers.length - e.nextTransferIndex) e
  have hactiveD := hpulledT.activeDeleteBatches_eq
  have hactiveT := hpulledD.activeTransfers_eq
  have hcountT := hpulledD.countP_transfers
  have hlimitT := startTransfers_active_le (transferWorkers sync)
    (e.runPlan.transfers.length - e.nextTransferIndex) htransfers
  have hlimitD := startDeletes_active_le (deleteWorkers sync)
    (e.runPlan.deletes.length - e.nextDeleteIndex) hdeletes
  unfold dispatchPhase
  cases e.phase with
  | deletingBefore => exact ⟨by simp only [dispatchDeletes]; omega, hlimitD⟩
  | copying => exact ⟨hlimitT, by simp only [dispatchTransfers]; omega⟩
  | deletingDuring =>
      obtain ⟨k, hboth⟩ := startDeletes_pulled (deleteWorkers sync)
        ((dispatchTransfers sync e).1.runPlan.deletes.length -
          (dispatchTransfers sync e).1.nextDeleteIndex) (dispatchTransfers sync e).1
      have hactive := hboth.activeTransfers_eq
      have hcount := hboth.countP_transfers
      refine ⟨?_, startDeletes_active_le _ _ ?_⟩
      · simp only [dispatchDeletes]
        rw [hactive, hcount]
        exact hlimitT
      · simp only [dispatchTransfers]
        omega
  | deletingAfter => exact ⟨by simp only [dispatchDeletes]; omega, hlimitD⟩
  | done => exact ⟨htransfers, hdeletes⟩
  | stopped => exact ⟨htransfers, hdeletes⟩

theorem dispatchTransfers_ne_nil (sync : SyncState) {e : SyncExecutionState}
    (hidle : e.activeTransfers = 0) (hqueue : ¬ e.transfersIssued) :
    (dispatchTransfers sync e).2 ≠ [] := by
  have hlt : e.nextTransferIndex < e.runPlan.transfers.length := Nat.lt_of_not_le hqueue
  have hworkers := transferWorkers_pos sync
  exact startTransfers_ne_nil (by omega) (by omega) hqueue

theorem dispatchDeletes_ne_nil (sync : SyncState) {e : SyncExecutionState}
    (hidle : e.activeDeleteBatches = 0) (hqueue : ¬ e.deletesIssued) :
    (dispatchDeletes sync e).2 ≠ [] := by
  have hlt : e.nextDeleteIndex < e.runPlan.deletes.length := Nat.lt_of_not_le hqueue
  have hworkers := deleteWorkers_pos sync
  exact startDeletes_ne_nil (by omega) (by omega) hqueue

/-- A phase that the loop leaves open is busy or is given work. -/
theorem dispatchPhase_busy {sync : SyncState} {e : SyncExecutionState}
    (h : phaseStep sync e = none) (hopen : ¬ (e.phase = .done ∨ e.phase = .stopped)) :
    0 < e.activeTransfers ∨ 0 < e.activeDeleteBatches ∨ (dispatchPhase sync e).2.2 ≠ [] := by
  by_cases hT : 0 < e.activeTransfers
  · exact .inl hT
  by_cases hD : 0 < e.activeDeleteBatches
  · exact .inr (.inl hD)
  have hidleT : e.activeTransfers = 0 := by omega
  have hidleD : e.activeDeleteBatches = 0 := by omega
  obtain ⟨hdeleting, hcopying, hduring⟩ := phaseStep_eq_none h
  refine .inr (.inr ?_)
  unfold dispatchPhase
  cases hphase : e.phase with
  | deletingBefore =>
      exact dispatchDeletes_ne_nil sync hidleD ((hdeleting (.inl hphase)).resolve_left hD)
  | copying => exact dispatchTransfers_ne_nil sync hidleT ((hcopying hphase).resolve_left hT)
  | deletingDuring =>
      show (dispatchTransfers sync e).2 ++
        (dispatchDeletes sync (dispatchTransfers sync e).1).2 ≠ []
      by_cases hqueue : e.transfersIssued
      · -- with no transfer left the first loop does nothing and the second sees this state
        have hskip : dispatchTransfers sync e = (e, []) := by
          unfold dispatchTransfers
          cases e.runPlan.transfers.length - e.nextTransferIndex with
          | zero => rfl
          | succ fuel => simp [startTransfers, hqueue]
        have hdeletes : ¬ e.deletesIssued := by
          rcases hduring hphase with ht | hd
          · exact absurd hqueue (ht.resolve_left hT)
          · exact hd.resolve_left hD
        rw [hskip]
        exact dispatchDeletes_ne_nil sync hidleD hdeletes
      · have hsome := dispatchTransfers_ne_nil sync hidleT hqueue
        simp [hsome]
  | deletingAfter =>
      exact dispatchDeletes_ne_nil sync hidleD ((hdeleting (.inr hphase)).resolve_left hD)
  | done => exact absurd (.inl hphase) hopen
  | stopped => exact absurd (.inr hphase) hopen

/-- Everything a dispatch can do: it moves the execution, and nothing else that a
later dispatch reads. -/
structure Dispatched (sync : SyncState) (execution : SyncExecutionState) (after : SyncState)
    (specs : List PendingSyncTask) (next : SyncExecutionState) : Prop where
  execution_eq : after.execution = some next
  mode_eq : after.mode = sync.mode
  policy_eq : after.policy = sync.policy
  guardrails_eq : after.deleteGuardrails = sync.deleteGuardrails
  tuning_eq : after.tuning = sync.tuning
  pulled : ∃ n m, Pulled execution n m specs next ∧
    (execution.phase = .copying → m = 0 ∧ specs.countP (·.isDelete) = 0) ∧
    (execution.phase = .deletingBefore ∨ execution.phase = .deletingAfter → n = 0)
  final : execution.phase = .done ∨ execution.phase = .stopped → specs = []
  busy : execution.phase = .done ∨ execution.phase = .stopped ∨
    0 < execution.activeTransfers ∨ 0 < execution.activeDeleteBatches ∨ specs ≠ []
  active_le : execution.activeTransfers ≤ transferWorkers sync →
    execution.activeDeleteBatches ≤ deleteWorkers sync →
    next.activeTransfers ≤ transferWorkers sync ∧
      next.activeDeleteBatches ≤ deleteWorkers sync

theorem dispatchSyncExecution_spec {sync : SyncState} {e : SyncExecutionState}
    (h : sync.execution = some e) :
    ∃ next, Dispatched sync (phaseLoop sync PHASE_TURNS e) (dispatchSyncExecution sync).1
      (dispatchSyncExecution sync).2 next := by
  have hstop := phaseStep_phaseLoop sync e
  unfold dispatchSyncExecution
  simp only [h]
  generalize phaseLoop sync PHASE_TURNS e = e' at hstop ⊢
  split
  next hfinal =>
    refine ⟨_, rfl, rfl, rfl, rfl, rfl, ⟨0, 0, Pulled.report e' _ _ _ _, ?_, ?_⟩, ?_, ?_, ?_⟩
    · exact fun _ => ⟨rfl, rfl⟩
    · exact fun _ => rfl
    · exact fun _ => rfl
    · exact hfinal.imp_right .inl
    · exact fun hT hD => ⟨hT, hD⟩
  next hopen =>
    obtain ⟨n, m, hpulled, hcopying, hdeleting⟩ := dispatchPhase_pulled sync e'
    have hbusy := dispatchPhase_busy hstop hopen
    have hlimits := @dispatchPhase_active_le sync e'
    rcases hdispatch : dispatchPhase sync e' with ⟨stage, next, specs⟩
    rw [hdispatch] at hpulled hcopying hbusy hlimits
    simp only
    split
    next hnil =>
      subst hnil
      have hreport := hpulled.trans
        (Pulled.report next false next.currentItem next.currentStrategy
          (some (finalSyncSummary next)))
      exact ⟨_, rfl, rfl, rfl, rfl, rfl, ⟨n, m, hreport, hcopying, hdeleting⟩, fun _ => rfl,
        .inr (.inr hbusy), hlimits⟩
    next =>
      exact ⟨_, rfl, rfl, rfl, rfl, rfl, ⟨n, m, hpulled, hcopying, hdeleting⟩,
        fun hfinal => absurd hfinal hopen, .inr (.inr hbusy), hlimits⟩

/-- What is counted when results arrive, and only then. -/
structure SameCounters (before after : SyncExecutionState) : Prop where
  completedTransfers_eq : after.completedTransfers = before.completedTransfers
  failedTransfers_eq : after.failedTransfers = before.failedTransfers
  completedDeletes_eq : after.completedDeletes = before.completedDeletes
  failedDeletes_eq : after.failedDeletes = before.failedDeletes
  bytesDone_eq : after.bytesDone = before.bytesDone

theorem phaseLoop_sameCounters (sync : SyncState) (fuel : Nat) (e : SyncExecutionState) :
    SameCounters e (phaseLoop sync fuel e) := by
  refine phaseLoop_invariant (SameCounters e) ?_ fuel ⟨rfl, rfl, rfl, rfl, rfl⟩
  intro x x' hx hstep
  have hmoved : SameCounters x x' := by
    rcases phaseStep_cases hstep with ⟨-, -, -, rfl⟩ | ⟨-, -, -, hnext⟩ | ⟨-, -, -, rfl⟩
    · exact ⟨rfl, rfl, rfl, rfl, rfl⟩
    · rcases hnext with ⟨-, rfl⟩ | ⟨-, -, -, rfl⟩ | ⟨-, -, rfl⟩ <;>
        exact ⟨rfl, rfl, rfl, rfl, rfl⟩
    · exact ⟨rfl, rfl, rfl, rfl, rfl⟩
  exact ⟨hmoved.1.trans hx.1, hmoved.2.trans hx.2, hmoved.3.trans hx.3, hmoved.4.trans hx.4,
    hmoved.5.trans hx.5⟩

/-- A dispatch counts nothing. -/
theorem Dispatched.sameCounters {sync caller : SyncState} {e next : SyncExecutionState}
    {fuel : Nat} {after : SyncState} {specs : List PendingSyncTask}
    (h : Dispatched sync (phaseLoop caller fuel e) after specs next) : SameCounters e next := by
  obtain ⟨n, m, hpulled, -⟩ := h.pulled
  have hloop := phaseLoop_sameCounters caller fuel e
  obtain ⟨_, _, _, _, rfl⟩ := hpulled.next_eq
  exact ⟨hloop.1, hloop.2, hloop.3, hloop.4, hloop.5⟩

/-- A dispatch changes the execution and the reported stage only. -/
theorem dispatchSyncExecution_frame (sync : SyncState) :
    ∃ execution stage, (dispatchSyncExecution sync).1 =
      { sync with
        execution := execution
        telemetry := { sync.telemetry with stage := stage } } := by
  unfold dispatchSyncExecution
  cases h : sync.execution with
  | none => exact ⟨sync.execution, sync.telemetry.stage, rfl⟩
  | some e =>
      simp only
      split
      next => exact ⟨_, _, rfl⟩
      next =>
        split
        next => exact ⟨_, _, rfl⟩
        next => exact ⟨_, _, rfl⟩

end AbixioUi
