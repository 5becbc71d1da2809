import Mathlib.Data.List.Perm.Basic
import AbixioUi.Foundation.Lists
import AbixioUi.Foundation.Runs
import AbixioUi.Sync.Dispatch

/-! # The invariant of a sync run

A run starts from a prepared plan and then meets its own results in any order,
and edits of the screen that keep the run. The invariant accounts for every task
handed out or in flight and says what each phase may assume.
-/

namespace AbixioUi

open Foundation

/-! ## The machine -/

/-- The message a task ends with. -/
inductive SyncRunResult
  | copyStepFinished (result : Except String SyncRunItem)
  | deleteBatchFinished (result : Except String SyncDeleteBatchResult)

/-- The message of a task, given how its requests went. -/
def PendingSyncTask.intoTask (answer : Except String Unit) : PendingSyncTask → SyncRunResult
  | .transfer item => .copyStepFinished (answer.map fun _ => item)
  | .deleteRemote _ _ keys bytes label =>
      .deleteBatchFinished (answer.map fun _ => ⟨keys.length, 0, bytes, label⟩)
  | .deleteLocal _ bytes label =>
      .deleteBatchFinished (answer.map fun _ => ⟨1, 0, bytes, label⟩)

def handleRunResult (sync : SyncState) : SyncRunResult → SyncState × List PendingSyncTask
  | .copyStepFinished result => copyStepFinished sync result
  | .deleteBatchFinished result => deleteBatchFinished sync result

/-- A run with the tasks it has handed out so far and those not yet answered. -/
structure SyncRun where
  sync : SyncState
  issued : List PendingSyncTask
  inFlight : List PendingSyncTask

inductive SyncRunEvent
  | deliver (index : Nat) (answer : Except String Unit)
  | edit (after : SyncState)

def SyncRun.step (run : SyncRun) : SyncRunEvent → SyncRun
  | .deliver index answer =>
      match run.inFlight[index]? with
      | none => run
      | some task =>
          let (sync, specs) := handleRunResult run.sync (task.intoTask answer)
          { sync := sync
            issued := run.issued ++ specs
            inFlight := run.inFlight.eraseIdx index ++ specs }
  | .edit after => { run with sync := after }

def startExecution (sync : SyncState) : SyncState :=
  match sync.mode with
  | .copy => startCopyExecution sync
  | .sync => startSyncExecution sync
  | .diff => sync

/-- The run as its start leaves it: the first tasks are handed out. -/
def SyncRun.start (sync : SyncState) : SyncRun :=
  let (after, specs) := dispatchSyncExecution (startExecution sync)
  { sync := after, issued := specs, inFlight := specs }

/-- The edits that keep a run: they leave the execution and what steers it alone. -/
structure KeepsRun (before after : SyncState) : Prop where
  execution_eq : after.execution = before.execution
  mode_eq : after.mode = before.mode
  policy_eq : after.policy = before.policy
  guardrails_eq : after.deleteGuardrails = before.deleteGuardrails

/-- The events of a single run. -/
def SyncRun.Own (run : SyncRun) : SyncRunEvent → Prop
  | .deliver _ _ => True
  | .edit after => KeepsRun run.sync after

/-- The events that keep the worker limits too. -/
def SyncRun.KeepsWorkers (run : SyncRun) : SyncRunEvent → Prop
  | .deliver _ _ => True
  | .edit after =>
      transferWorkers after = transferWorkers run.sync ∧
        deleteWorkers after = deleteWorkers run.sync

/-! ## Accounting -/

/-- Every queue position, counter and byte is accounted for by tasks. -/
structure Accounted (e : SyncExecutionState) (issued inFlight : List PendingSyncTask) :
    Prop where
  handsOut : HandsOut issued (e.runPlan.transfers.take e.nextTransferIndex)
    (e.runPlan.deletes.take e.nextDeleteIndex)
  transfers_le : e.nextTransferIndex ≤ e.runPlan.transfers.length
  deletes_le : e.nextDeleteIndex ≤ e.runPlan.deletes.length
  activeTransfers_eq : e.activeTransfers = inFlight.countP (·.isTransfer)
  activeDeletes_eq : e.activeDeleteBatches = inFlight.countP (·.isDelete)
  finished_eq : e.nextTransferIndex =
    e.completedTransfers + e.failedTransfers + e.activeTransfers
  bytes_le : itemBytes e.runPlan.transfers + itemBytes e.runPlan.deletes < 2 ^ 64 →
    e.bytesDone + (inFlight.map (·.bytes)).sum ≤
      itemBytes (e.runPlan.transfers.take e.nextTransferIndex) +
        itemBytes (e.runPlan.deletes.take e.nextDeleteIndex)

theorem itemBytes_take_le (items : List SyncRunItem) (n : Nat) :
    itemBytes (items.take n) ≤ itemBytes items := by
  simpa using itemBytes_take_drop_le items 0 n

theorem itemBytes_take_add (items : List SyncRunItem) (i n : Nat) :
    itemBytes (items.take (i + n)) =
      itemBytes (items.take i) + itemBytes ((items.drop i).take n) := by
  rw [List.take_add, itemBytes_append]

theorem Accounted.pulled {e e' : SyncExecutionState} {n m : Nat}
    {issued inFlight specs : List PendingSyncTask} (h : Accounted e issued inFlight)
    (hp : Pulled e n m specs e') : Accounted e' (issued ++ specs) (inFlight ++ specs) := by
  have hcount := hp.countP_transfers
  obtain ⟨⟨_, _, _, _, rfl⟩, hand, htransfers, hdeletes⟩ := hp
  have hT := h.transfers_le
  have hD := h.deletes_le
  refine ⟨?_, ?_, ?_, ?_, ?_, ?_, ?_⟩
  · have hboth := h.handsOut.append hand
    rwa [← List.take_add, ← List.take_add] at hboth
  · show e.nextTransferIndex + n ≤ e.runPlan.transfers.length
    omega
  · show e.nextDeleteIndex + m ≤ e.runPlan.deletes.length
    omega
  · simp [h.activeTransfers_eq]
  · simp [h.activeDeletes_eq]
  · have hfinished := h.finished_eq
    simp only
    omega
  · intro hsum
    have hbytes := h.bytes_le hsum
    have hlt := itemBytes_take_drop_le e.runPlan.deletes e.nextDeleteIndex m
    have hspecs := hand.bytes_eq (by simp only at hsum; omega)
    simp only [List.map_append, List.sum_append, itemBytes_take_add]
    omega

theorem Accounted.phase {e : SyncExecutionState} {issued inFlight : List PendingSyncTask}
    (h : Accounted e issued inFlight) (phase : SyncExecutionPhase) (skipped : Bool) :
    Accounted { e with phase := phase, deletePhaseSkipped := skipped } issued inFlight :=
  ⟨h.handsOut, h.transfers_le, h.deletes_le, h.activeTransfers_eq, h.activeDeletes_eq,
    h.finished_eq, h.bytes_le⟩

theorem sum_bytes_eraseIdx {tasks : List PendingSyncTask} {i : Nat} {task : PendingSyncTask}
    (h : tasks[i]? = some task) :
    (tasks.map (·.bytes)).sum = ((tasks.eraseIdx i).map (·.bytes)).sum + task.bytes := by
  obtain ⟨hlt, rfl⟩ := List.getElem?_eq_some_iff.mp h
  have hperm := (List.getElem_cons_eraseIdx_perm hlt).map (·.bytes)
  rw [← hperm.sum_nat, List.map_cons, List.sum_cons, Nat.add_comm]

/-- Answering a task in flight takes it off the counter of its kind. -/
theorem Accounted.answered {e e' : SyncExecutionState} {issued inFlight : List PendingSyncTask}
    (h : Accounted e issued inFlight) {i : Nat} {task : PendingSyncTask}
    (hi : inFlight[i]? = some task) (hplan : e'.runPlan = e.runPlan)
    (hnextT : e'.nextTransferIndex = e.nextTransferIndex)
    (hnextD : e'.nextDeleteIndex = e.nextDeleteIndex)
    (hactiveT : e'.activeTransfers = e.activeTransfers - if task.isTransfer then 1 else 0)
    (hactiveD : e'.activeDeleteBatches =
      e.activeDeleteBatches - if task.isDelete then 1 else 0)
    (hfinished : e'.completedTransfers + e'.failedTransfers =
      e.completedTransfers + e.failedTransfers + if task.isTransfer then 1 else 0)
    (hbytes : e'.bytesDone = e.bytesDone ∨ e'.bytesDone = addU64 e.bytesDone task.bytes) :
    Accounted e' issued (inFlight.eraseIdx i) := by
  have hcountT := countP_eraseIdx hi (·.isTransfer)
  have hcountD := countP_eraseIdx hi (·.isDelete)
  have hsum := sum_bytes_eraseIdx hi
  have hT := h.activeTransfers_eq
  have hD := h.activeDeletes_eq
  have hf := h.finished_eq
  refine ⟨?_, ?_, ?_, by omega, by omega, by omega, ?_⟩
  · rw [hplan, hnextT, hnextD]
    exact h.handsOut
  · rw [hplan, hnextT]
    exact h.transfers_le
  · rw [hplan, hnextD]
    exact h.deletes_le
  · rw [hplan, hnextT, hnextD]
    intro hlt
    have hle := h.bytes_le hlt
    have htakeT := itemBytes_take_le e.runPlan.transfers e.nextTransferIndex
    have htakeD := itemBytes_take_le e.runPlan.deletes e.nextDeleteIndex
    rcases hbytes with hsame | hadded
    · omega
    · rw [hadded, addU64_of_lt (by omega)]
      omega

theorem Accounted.transferFinished {e : SyncExecutionState}
    {issued inFlight : List PendingSyncTask} (h : Accounted e issued inFlight) {i : Nat}
    {item : SyncRunItem} (hi : inFlight[i]? = some (.transfer item)) (ignoreErrors : Bool)
    (answer : Except String Unit) :
    Accounted (e.transferFinished ignoreErrors (answer.map fun _ => item)) issued
      (inFlight.eraseIdx i) := by
  cases answer with
  | ok _ => exact h.answered hi rfl rfl rfl rfl rfl (Nat.add_right_comm _ _ _) (.inr rfl)
  | error _ => exact h.answered hi rfl rfl rfl rfl rfl rfl (.inl rfl)

/-- The result of a delete task, with the bytes that the task carries. -/
theorem Accounted.deleteFinished {e : SyncExecutionState}
    {issued inFlight : List PendingSyncTask} (h : Accounted e issued inFlight) {i : Nat}
    {task : PendingSyncTask} (hi : inFlight[i]? = some task) (hdelete : task.isDelete)
    (ignoreErrors : Bool) {result : Except String SyncDeleteBatchResult}
    (hresult : ∀ batch, result = .ok batch → batch.bytes = task.bytes) :
    Accounted (e.deleteFinished ignoreErrors result) issued (inFlight.eraseIdx i) := by
  have htransfer : task.isTransfer = false := by
    simpa [PendingSyncTask.isDelete] using hdelete
  cases result with
  | ok batch =>
      refine h.answered hi rfl rfl rfl ?_ ?_ ?_ (.inr ?_)
      · simp [htransfer, SyncExecutionState.deleteFinished]
      · simp [hdelete, SyncExecutionState.deleteFinished]
      · simp [htransfer, SyncExecutionState.deleteFinished]
      · rw [← hresult batch rfl]
        rfl
  | error _ =>
      refine h.answered hi rfl rfl rfl ?_ ?_ ?_ (.inl rfl)
      · simp [htransfer, SyncExecutionState.deleteFinished]
      · simp [hdelete, SyncExecutionState.deleteFinished]
      · simp [htransfer, SyncExecutionState.deleteFinished]

/-! ## Phases -/

/-- What each phase may assume, under the mode and the delete phase of the run. -/
def Phased (mode : SyncMode) (deletePhase : SyncDeletePhase) (e : SyncExecutionState) : Prop :=
  match e.phase with
  | .deletingBefore => mode = .sync ∧ deletePhase = .before ∧ e.nextTransferIndex = 0
  | .copying =>
      e.activeDeleteBatches = 0 ∧ (mode = .sync → deletePhase = .before → e.deletesIssued) ∧
        (e.nextDeleteIndex = 0 ∨ mode = .sync ∧ deletePhase = .before)
  | .deletingDuring => mode = .sync ∧ deletePhase = .during
  | .deletingAfter =>
      mode = .sync ∧ deletePhase = .after ∧ e.transfersIssued ∧ e.activeTransfers = 0
  | .done =>
      e.activeTransfers = 0 ∧ e.activeDeleteBatches = 0 ∧ e.transfersIssued ∧
        (mode = .sync → deletePhase = .before → e.deletesIssued) ∧
        (mode = .sync → e.deletePhaseSkipped = false → e.deletesIssued) ∧
        (e.nextDeleteIndex = 0 ∨ mode = .sync)
  | .stopped =>
      mode = .sync ∧ (deletePhase = .before → e.nextTransferIndex = 0) ∧
        (deletePhase = .after → e.transfersIssued ∧ e.activeTransfers = 0)

theorem deletesIssued_of_nil {e : SyncExecutionState} (h : e.runPlan.deletes = []) :
    e.deletesIssued := by
  show e.runPlan.deletes.length ≤ e.nextDeleteIndex
  rw [h]
  exact Nat.zero_le _

/-- One turn of the phase loop moves to a phase whose assumptions hold. -/
theorem Phased.phaseStep {sync : SyncState} {e e' : SyncExecutionState}
    (h : Phased sync.mode sync.policy.deletePhase e) (hmode : sync.mode ≠ .diff)
    (hstep : phaseStep sync e = some e') : Phased sync.mode sync.policy.deletePhase e' := by
  rcases phaseStep_cases hstep with ⟨hp, hactive, hissued, rfl⟩ | ⟨hp, hactive, hissued, hnext⟩ |
    ⟨hp, hactive, hissued, rfl⟩
  · simp only [Phased, hp] at h
    exact ⟨hactive, fun _ _ => hissued, .inr ⟨h.1, h.2.1⟩⟩
  · simp only [Phased, hp] at h
    obtain ⟨hidle, hbefore, hnone⟩ := h
    have hkind : e.nextDeleteIndex = 0 ∨ sync.mode = .sync := hnone.imp_right And.left
    rcases hnext with ⟨hend, rfl⟩ | ⟨-, -, -, rfl⟩ | ⟨hcopy, -, rfl⟩
    · refine ⟨hactive, hidle, hissued, hbefore, fun hsync _ => ?_, hkind⟩
      rcases hend with hcopy | hnil
      · rw [hcopy] at hsync
        cases hsync
      · exact deletesIssued_of_nil hnil
    · exact ⟨hactive, hidle, hissued, hbefore, fun _ hskip => Bool.noConfusion hskip, hkind⟩
    · have hsync : sync.mode = .sync := by
        cases hm : sync.mode with
        | diff => exact absurd hm hmode
        | copy => exact absurd hm hcopy
        | sync => rfl
      cases hd : sync.policy.deletePhase with
      | before =>
          have hdeletes := hbefore hsync hd
          exact ⟨hactive, hidle, hissued, fun _ _ => hdeletes, fun _ _ => hdeletes, .inr hsync⟩
      | during => exact ⟨hsync, rfl⟩
      | after => exact ⟨hsync, rfl, hissued, hactive⟩
  · rcases hp with ⟨hp, hactiveT, hissuedT⟩ | hp
    · simp only [Phased, hp] at h
      exact ⟨hactiveT, hactive, hissuedT, fun _ _ => hissued, fun _ _ => hissued, .inr h.1⟩
    · simp only [Phased, hp] at h
      exact ⟨h.2.2.2, hactive, h.2.2.1, fun _ _ => hissued, fun _ _ => hissued, .inr h.1⟩

/-- What a phase may hand out keeps its own assumptions. -/
theorem Phased.pulled {mode : SyncMode} {deletePhase : SyncDeletePhase}
    {e e' : SyncExecutionState} {n m : Nat} {specs : List PendingSyncTask}
    (h : Phased mode deletePhase e) (hp : Pulled e n m specs e')
    (hcopying : e.phase = .copying → m = 0 ∧ specs.countP (·.isDelete) = 0)
    (hdeleting : e.phase = .deletingBefore ∨ e.phase = .deletingAfter → n = 0)
    (hfinal : e.phase = .done ∨ e.phase = .stopped → specs = []) :
    Phased mode deletePhase e' := by
  have hcount := hp.countP_transfers
  obtain ⟨⟨_, _, _, _, rfl⟩, hand, htransfers, hdeletes⟩ := hp
  unfold Phased at h ⊢
  simp only
  cases hphase : e.phase with
  | deletingBefore =>
      simp only [hphase] at h ⊢
      have hn := hdeleting (.inl hphase)
      exact ⟨h.1, h.2.1, by omega⟩
  | copying =>
      simp only [hphase] at h ⊢
      obtain ⟨hm, hnone⟩ := hcopying hphase
      subst hm
      rw [hnone]
      exact h
  | deletingDuring =>
      simp only [hphase] at h ⊢
      exact h
  | deletingAfter =>
      simp only [hphase] at h ⊢
      have hn := hdeleting (.inr hphase)
      subst hn
      rw [hcount]
      exact h
  | done =>
      simp only [hphase] at h ⊢
      have hnil := hfinal (.inl hphase)
      subst hnil
      have hn : n = 0 := by simpa using hcount.symm
      subst hn
      have hm : m = 0 := by
        have hlen := congrArg List.length hand.deletes_eq
        simp only [List.flatMap_nil, List.length_nil, List.length_map, List.length_take,
          List.length_drop] at hlen
        omega
      subst hm
      exact h
  | stopped =>
      simp only [hphase] at h ⊢
      have hnil := hfinal (.inr hphase)
      subst hnil
      have hn : n = 0 := by simpa using hcount.symm
      subst hn
      exact h

/-- Answers only lower the active counters, and a phase asks for none to be active. -/
theorem Phased.answered {mode : SyncMode} {deletePhase : SyncDeletePhase}
    {e e' : SyncExecutionState} (h : Phased mode deletePhase e) (hphase : e'.phase = e.phase)
    (hplan : e'.runPlan = e.runPlan) (hnextT : e'.nextTransferIndex = e.nextTransferIndex)
    (hnextD : e'.nextDeleteIndex = e.nextDeleteIndex)
    (hskip : e'.deletePhaseSkipped = e.deletePhaseSkipped)
    (hactiveT : e'.activeTransfers ≤ e.activeTransfers)
    (hactiveD : e'.activeDeleteBatches ≤ e.activeDeleteBatches) :
    Phased mode deletePhase e' := by
  have hT : e.activeTransfers = 0 → e'.activeTransfers = 0 := by omega
  have hD : e.activeDeleteBatches = 0 → e'.activeDeleteBatches = 0 := by omega
  have hissuedT : e'.transfersIssued ↔ e.transfersIssued := by
    simp [SyncExecutionState.transfersIssued, hplan, hnextT]
  have hissuedD : e'.deletesIssued ↔ e.deletesIssued := by
    simp [SyncExecutionState.deletesIssued, hplan, hnextD]
  unfold Phased at h ⊢
  rw [hphase, hnextT, hnextD, hskip, hissuedT, hissuedD]
  cases hp : e.phase with
  | deletingBefore =>
      rw [hp] at h
      exact h
  | copying =>
      rw [hp] at h
      exact ⟨hD h.1, h.2⟩
  | deletingDuring =>
      rw [hp] at h
      exact h
  | deletingAfter =>
      rw [hp] at h
      exact ⟨h.1, h.2.1, h.2.2.1, hT h.2.2.2⟩
  | done =>
      rw [hp] at h
      exact ⟨hT h.1, hD h.2.1, h.2.2⟩
  | stopped =>
      rw [hp] at h
      exact ⟨h.1, h.2.1, fun hafter => ⟨(h.2.2 hafter).1, hT (h.2.2 hafter).2⟩⟩

theorem Phased.transferFinished {mode : SyncMode} {deletePhase : SyncDeletePhase}
    {e : SyncExecutionState} (h : Phased mode deletePhase e) (ignoreErrors : Bool)
    (result : Except String SyncRunItem) :
    Phased mode deletePhase (e.transferFinished ignoreErrors result) := by
  cases result with
  | ok item => exact h.answered rfl rfl rfl rfl rfl (Nat.sub_le _ _) le_rfl
  | error message =>
      by_cases hstop : ignoreErrors = false ∧ e.phase = .deletingDuring
      · have hphase : (e.transferFinished ignoreErrors (.error message)).phase = .stopped :=
          if_pos hstop
        simp only [Phased, hstop.2] at h
        simp [Phased, hphase, h.1, h.2]
      · exact h.answered (if_neg hstop) rfl rfl rfl rfl (Nat.sub_le _ _) le_rfl

/-- A failed delete stops the run; while one is in flight no phase forbids that. -/
theorem Phased.deleteFinished {mode : SyncMode} {deletePhase : SyncDeletePhase}
    {e : SyncExecutionState} (h : Phased mode deletePhase e)
    (hactive : 0 < e.activeDeleteBatches) (ignoreErrors : Bool)
    (result : Except String SyncDeleteBatchResult) :
    Phased mode deletePhase (e.deleteFinished ignoreErrors result) := by
  cases result with
  | ok batch => exact h.answered rfl rfl rfl rfl rfl le_rfl (Nat.sub_le _ _)
  | error message =>
      by_cases hstop : ignoreErrors = false
      · have hphase : (e.deleteFinished ignoreErrors (.error message)).phase = .stopped :=
          if_pos hstop
        unfold Phased at h ⊢
        rw [hphase]
        show mode = .sync ∧ (deletePhase = .before → e.nextTransferIndex = 0) ∧
          (deletePhase = .after → e.transfersIssued ∧ e.activeTransfers = 0)
        cases hp : e.phase with
        | deletingBefore =>
            simp only [hp] at h
            simp [h.1, h.2.1, h.2.2]
        | copying =>
            simp only [hp] at h
            omega
        | deletingDuring =>
            simp only [hp] at h
            simp [h.1, h.2]
        | deletingAfter =>
            simp only [hp] at h
            simp [h.1, h.2.1, h.2.2.1, h.2.2.2]
        | done =>
            simp only [hp] at h
            omega
        | stopped =>
            simp only [hp] at h
            exact h
      · exact h.answered (if_neg hstop) rfl rfl rfl rfl le_rfl (Nat.sub_le _ _)

/-! ## One event -/

/-- The run keeps to its start and its plan, its counters and its phases. -/
structure Coherent (start : SyncState) (runPlan : SyncRunPlan) (sync : SyncState)
    (e : SyncExecutionState) (issued inFlight : List PendingSyncTask) : Prop where
  execution_eq : sync.execution = some e
  mode_eq : sync.mode = start.mode
  policy_eq : sync.policy = start.policy
  guardrails_eq : sync.deleteGuardrails = start.deleteGuardrails
  plan_eq : e.runPlan = runPlan
  total_eq : start.mode = .copy ∧ e.totalBytes = runPlan.totalTransferBytes ∨
    start.mode = .sync ∧
      e.totalBytes = addU64 runPlan.totalTransferBytes runPlan.totalDeleteBytes
  accounted : Accounted e issued inFlight
  phased : Phased start.mode start.policy.deletePhase e

section

variable {start sync : SyncState} {runPlan : SyncRunPlan} {e : SyncExecutionState}
  {issued inFlight : List PendingSyncTask}

theorem Coherent.mode_ne (h : Coherent start runPlan sync e issued inFlight) :
    start.mode ≠ .diff := by
  intro hdiff
  rcases h.total_eq with ⟨hmode, -⟩ | ⟨hmode, -⟩ <;> rw [hdiff] at hmode <;> cases hmode

/-- The phase loop keeps the run coherent. -/
theorem Coherent.loop (h : Coherent start runPlan sync e issued inFlight) (fuel : Nat) :
    Coherent start runPlan { sync with execution := some (phaseLoop sync fuel e) }
      (phaseLoop sync fuel e) issued inFlight := by
  refine phaseLoop_invariant
    (fun x => Coherent start runPlan { sync with execution := some x } x issued inFlight)
    ?_ fuel ⟨rfl, h.2, h.3, h.4, h.5, h.6, h.7, h.8⟩
  intro x x' hx hstep
  have hphased : Phased start.mode start.policy.deletePhase x' := by
    have hmode := h.mode_ne
    rw [← h.mode_eq] at hmode
    have hbefore := hx.phased
    rw [← h.mode_eq, ← h.policy_eq] at hbefore ⊢
    exact hbefore.phaseStep hmode hstep
  have hframe : ∃ phase skipped,
      x' = { x with phase := phase, deletePhaseSkipped := skipped } := by
    rcases phaseStep_cases hstep with ⟨-, -, -, rfl⟩ | ⟨-, -, -, hnext⟩ | ⟨-, -, -, rfl⟩
    · exact ⟨_, _, rfl⟩
    · rcases hnext with ⟨-, rfl⟩ | ⟨-, -, -, rfl⟩ | ⟨-, -, rfl⟩ <;> exact ⟨_, _, rfl⟩
    · exact ⟨_, _, rfl⟩
  obtain ⟨phase, skipped, rfl⟩ := hframe
  exact ⟨rfl, h.2, h.3, h.4, hx.plan_eq, hx.total_eq, hx.accounted.phase phase skipped, hphased⟩

theorem Accounted.inFlight_ne_nil (h : Accounted e issued inFlight)
    (hactive : 0 < e.activeTransfers ∨ 0 < e.activeDeleteBatches) : inFlight ≠ [] := by
  rintro rfl
  have hT := h.activeTransfers_eq
  have hD := h.activeDeletes_eq
  simp only [List.countP_nil] at hT hD
  omega

theorem Accounted.activeTransfers_pos (h : Accounted e issued inFlight) {i : Nat}
    {task : PendingSyncTask} (hi : inFlight[i]? = some task) (htransfer : task.isTransfer) :
    0 < e.activeTransfers := by
  have hcount := countP_eraseIdx hi (·.isTransfer)
  rw [if_pos htransfer] at hcount
  have hactive := h.activeTransfers_eq
  omega

theorem Accounted.activeDeletes_pos (h : Accounted e issued inFlight) {i : Nat}
    {task : PendingSyncTask} (hi : inFlight[i]? = some task) (hdelete : task.isDelete) :
    0 < e.activeDeleteBatches := by
  have hcount := countP_eraseIdx hi (·.isDelete)
  rw [if_pos hdelete] at hcount
  have hactive := h.activeDeletes_eq
  omega

/-- A dispatch keeps the run coherent and leaves it finished or with work in flight. -/
theorem Coherent.dispatch (h : Coherent start runPlan sync e issued inFlight) :
    ∃ next,
      Dispatched sync (phaseLoop sync PHASE_TURNS e) (dispatchSyncExecution sync).1
        (dispatchSyncExecution sync).2 next ∧
      Coherent start runPlan (dispatchSyncExecution sync).1 next
        (issued ++ (dispatchSyncExecution sync).2) (inFlight ++ (dispatchSyncExecution sync).2) ∧
      (next.phase = .done ∨ next.phase = .stopped ∨
        inFlight ++ (dispatchSyncExecution sync).2 ≠ []) := by
  obtain ⟨next, hd⟩ := dispatchSyncExecution_spec h.execution_eq
  have hloop := h.loop PHASE_TURNS
  obtain ⟨n, m, hpulled, hcopying, hdeleting⟩ := hd.pulled
  have hphased := hloop.phased.pulled hpulled hcopying hdeleting hd.final
  have haccounted := hloop.accounted.pulled hpulled
  obtain ⟨_, _, _, _, hnext⟩ := hpulled.next_eq
  refine ⟨next, hd, ⟨hd.execution_eq, ?_, ?_, ?_, ?_, ?_, haccounted, hphased⟩, ?_⟩
  · rw [hd.mode_eq, h.mode_eq]
  · rw [hd.policy_eq, h.policy_eq]
  · rw [hd.guardrails_eq, h.guardrails_eq]
  · rw [hnext]
    exact hloop.plan_eq
  · rw [hnext]
    exact hloop.total_eq
  · have hphase : next.phase = (phaseLoop sync PHASE_TURNS e).phase := by rw [hnext]
    rw [hphase]
    rcases hd.busy with hdone | hstopped | hT | hD | hspecs
    · exact .inl hdone
    · exact .inr (.inl hstopped)
    · exact .inr (.inr (List.append_ne_nil_of_left_ne_nil
        (hloop.accounted.inFlight_ne_nil (.inl hT)) _))
    · exact .inr (.inr (List.append_ne_nil_of_left_ne_nil
        (hloop.accounted.inFlight_ne_nil (.inr hD)) _))
    · exact .inr (.inr (List.append_ne_nil_of_right_ne_nil _ hspecs))

/-- The execution after a result, before the dispatch that follows it. -/
def SyncExecutionState.resultHandled (ignoreErrors : Bool) (e : SyncExecutionState) :
    SyncRunResult → SyncExecutionState
  | .copyStepFinished result => e.transferFinished ignoreErrors result
  | .deleteBatchFinished result => e.deleteFinished ignoreErrors result

/-- Both result handlers update the execution and dispatch. -/
theorem handleRunResult_eq (hexec : sync.execution = some e) (result : SyncRunResult) :
    ∃ telemetry, handleRunResult sync result =
      dispatchSyncExecution
        { sync with
          execution := some (e.resultHandled sync.deleteGuardrails.ignoreErrors result)
          telemetry := telemetry } := by
  cases result with
  | copyStepFinished result =>
      cases result <;> exact ⟨_, by simp [handleRunResult, copyStepFinished, hexec,
        SyncExecutionState.resultHandled]; rfl⟩
  | deleteBatchFinished result =>
      exact ⟨sync.telemetry, by simp [handleRunResult, deleteBatchFinished, hexec,
        SyncExecutionState.resultHandled]⟩

theorem resultHandled_frame (e : SyncExecutionState) (ignoreErrors : Bool)
    (result : SyncRunResult) :
    (e.resultHandled ignoreErrors result).runPlan = e.runPlan ∧
      (e.resultHandled ignoreErrors result).totalBytes = e.totalBytes := by
  rcases result with (_ | _) | (_ | _) <;> exact ⟨rfl, rfl⟩

/-- Answering a task in flight keeps the run coherent. -/
theorem Coherent.answered (h : Coherent start runPlan sync e issued inFlight) {i : Nat}
    {task : PendingSyncTask} (hi : inFlight[i]? = some task) (answer : Except String Unit)
    (telemetry : SyncTelemetry) :
    Coherent start runPlan
      { sync with
        execution := some
          (e.resultHandled sync.deleteGuardrails.ignoreErrors (task.intoTask answer))
        telemetry := telemetry }
      (e.resultHandled sync.deleteGuardrails.ignoreErrors (task.intoTask answer)) issued
      (inFlight.eraseIdx i) := by
  obtain ⟨hplan, htotal⟩ := resultHandled_frame e sync.deleteGuardrails.ignoreErrors
    (task.intoTask answer)
  refine ⟨rfl, h.2, h.3, h.4, hplan.trans h.plan_eq, htotal ▸ h.total_eq, ?_, ?_⟩
  · cases task with
    | transfer item => exact h.accounted.transferFinished hi _ answer
    | deleteRemote connectionId bucket keys bytes label =>
        refine h.accounted.deleteFinished hi rfl _ ?_
        cases answer <;> simp [Except.map, PendingSyncTask.bytes]
    | deleteLocal path bytes label =>
        refine h.accounted.deleteFinished hi rfl _ ?_
        cases answer <;> simp [Except.map, PendingSyncTask.bytes]
  · cases task with
    | transfer item => exact h.phased.transferFinished _ _
    | deleteRemote connectionId bucket keys bytes label =>
        exact h.phased.deleteFinished (h.accounted.activeDeletes_pos hi rfl) _ _
    | deleteLocal path bytes label =>
        exact h.phased.deleteFinished (h.accounted.activeDeletes_pos hi rfl) _ _

theorem Coherent.edited (h : Coherent start runPlan sync e issued inFlight) {after : SyncState}
    (hkeeps : KeepsRun sync after) : Coherent start runPlan after e issued inFlight :=
  ⟨hkeeps.execution_eq.trans h.execution_eq, hkeeps.mode_eq.trans h.mode_eq,
    hkeeps.policy_eq.trans h.policy_eq, hkeeps.guardrails_eq.trans h.guardrails_eq, h.plan_eq,
    h.total_eq, h.accounted, h.phased⟩

/-- A run starts with nothing handed out and nothing counted. -/
theorem startExecution_fresh (hplan : start.runPlan = some runPlan) (hmode : start.mode ≠ .diff)
    (h : (startExecution start).execution = some e) :
    e = .start e.phase e.totalBytes runPlan := by
  unfold startExecution startCopyExecution startSyncExecution at h
  simp only [hplan] at h
  split at h
  next =>
    rw [← Option.some.inj h]
    rfl
  next =>
    rw [← Option.some.inj h]
    rfl
  next hdiff => exact absurd hdiff hmode

/-- The first execution of a run, before anything is handed out. -/
theorem coherent_start (hplan : start.runPlan = some runPlan) (hmode : start.mode ≠ .diff) :
    ∃ e, Coherent start runPlan (startExecution start) e [] [] := by
  have haccounted : ∀ phase total, Accounted (.start phase total runPlan) [] [] := by
    intro phase total
    exact ⟨HandsOut.nil, Nat.zero_le _, Nat.zero_le _, rfl, rfl, rfl, fun _ => Nat.zero_le _⟩
  unfold startExecution
  cases hm : start.mode with
  | diff => exact absurd hm hmode
  | copy =>
      simp only [startCopyExecution, hplan]
      refine ⟨_, rfl, hm.symm ▸ rfl, rfl, rfl, rfl, .inl ⟨hm, rfl⟩, haccounted _ _, ?_⟩
      rw [hm]
      exact ⟨rfl, fun hsync => SyncMode.noConfusion hsync, .inl rfl⟩
  | sync =>
      simp only [startSyncExecution, hplan]
      refine ⟨_, rfl, hm.symm ▸ rfl, rfl, rfl, rfl, .inr ⟨hm, rfl⟩, haccounted _ _, ?_⟩
      rw [hm]
      unfold startPhase
      by_cases hnil : runPlan.deletes = []
      · have hcopying : ∀ deletePhase, Phased .sync deletePhase
            (.start .copying (addU64 runPlan.totalTransferBytes runPlan.totalDeleteBytes)
              runPlan) :=
          fun _ => ⟨rfl, fun _ _ => deletesIssued_of_nil hnil, .inl rfl⟩
        cases start.policy.deletePhase <;> simpa [hnil] using hcopying _
      · cases hd : start.policy.deletePhase with
        | before =>
            simp only [hnil, if_false]
            exact ⟨rfl, rfl, rfl⟩
        | during =>
            simp only [hnil, if_false]
            exact ⟨rfl, rfl⟩
        | after => exact ⟨rfl, fun _ hbefore => SyncDeletePhase.noConfusion hbefore, .inl rfl⟩

end

end AbixioUi
