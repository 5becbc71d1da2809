import AbixioUi.Sync.RunInvariant
import AbixioUi.Sync.RunPlan

/-! # What every sync run keeps

The results here hold in every state of every run: each item is handed out once
and in plan order, deletes and transfers keep the order that the delete phase
asks for, and a run that is not over has work in flight.
-/

namespace AbixioUi

open Foundation

/-! ## Whole runs -/

/-- The run is coherent, and it is over or has work in flight. -/
def SyncRun.Holds (start : SyncState) (runPlan : SyncRunPlan) (run : SyncRun) : Prop :=
  ∃ e, Coherent start runPlan run.sync e run.issued run.inFlight ∧
    (e.phase = .done ∨ e.phase = .stopped ∨ run.inFlight ≠ [])

section

variable {start : SyncState} {runPlan : SyncRunPlan} {run : SyncRun} {e : SyncExecutionState}

/-- What delivering the answer of a task in flight does. -/
theorem SyncRun.deliver_spec (h : Coherent start runPlan run.sync e run.issued run.inFlight)
    {i : Nat} {task : PendingSyncTask} (hi : run.inFlight[i]? = some task)
    (answer : Except String Unit) :
    ∃ before specs next,
      before.mode = run.sync.mode ∧ before.policy = run.sync.policy ∧
      before.deleteGuardrails = run.sync.deleteGuardrails ∧ before.tuning = run.sync.tuning ∧
      Dispatched before
        (phaseLoop before PHASE_TURNS
          (e.resultHandled start.deleteGuardrails.ignoreErrors (task.intoTask answer)))
        (run.step (.deliver i answer)).sync specs next ∧
      (run.step (.deliver i answer)).issued = run.issued ++ specs ∧
      Coherent start runPlan (run.step (.deliver i answer)).sync next
        (run.step (.deliver i answer)).issued (run.step (.deliver i answer)).inFlight ∧
      (next.phase = .done ∨ next.phase = .stopped ∨
        (run.step (.deliver i answer)).inFlight ≠ []) := by
  obtain ⟨telemetry, hhandle⟩ := handleRunResult_eq h.execution_eq (task.intoTask answer)
  obtain ⟨next, hd, hcoherent, hbusy⟩ := (h.answered hi answer telemetry).dispatch
  have hstep : run.step (.deliver i answer) =
      { sync := (handleRunResult run.sync (task.intoTask answer)).1
        issued := run.issued ++ (handleRunResult run.sync (task.intoTask answer)).2
        inFlight := run.inFlight.eraseIdx i ++
          (handleRunResult run.sync (task.intoTask answer)).2 } := by
    simp only [SyncRun.step, hi]
  rw [hstep, hhandle, ← h.guardrails_eq]
  exact ⟨{ run.sync with
      execution := some
        (e.resultHandled run.sync.deleteGuardrails.ignoreErrors (task.intoTask answer))
      telemetry := telemetry }, _, next, rfl, rfl, rfl, rfl, hd, rfl, hcoherent, hbusy⟩

/-- A delivery that matches no task in flight changes nothing. -/
theorem SyncRun.deliver_none {i : Nat} (hi : run.inFlight[i]? = none)
    (answer : Except String Unit) : run.step (.deliver i answer) = run := by
  simp only [SyncRun.step, hi]

theorem SyncRun.Holds.step (h : run.Holds start runPlan) {event : SyncRunEvent}
    (hown : run.Own event) : (run.step event).Holds start runPlan := by
  obtain ⟨e, hcoherent, hbusy⟩ := h
  cases event with
  | deliver i answer =>
      cases hi : run.inFlight[i]? with
      | none =>
          rw [SyncRun.deliver_none hi]
          exact ⟨e, hcoherent, hbusy⟩
      | some task =>
          obtain ⟨_, _, next, -, -, -, -, -, -, hnext, hbusy⟩ :=
            SyncRun.deliver_spec hcoherent hi answer
          exact ⟨next, hnext, hbusy⟩
  | edit after => exact ⟨e, hcoherent.edited hown, hbusy⟩

theorem SyncRun.start_holds (hplan : start.runPlan = some runPlan)
    (hmode : start.mode ≠ .diff) : (SyncRun.start start).Holds start runPlan := by
  obtain ⟨e, hcoherent⟩ := coherent_start hplan hmode
  obtain ⟨next, -, hnext, hbusy⟩ := hcoherent.dispatch
  exact ⟨next, hnext, hbusy⟩

theorem SyncRun.run_holds (hplan : start.runPlan = some runPlan) (hmode : start.mode ≠ .diff)
    {events : List SyncRunEvent}
    (hown : Along SyncRun.step SyncRun.Own (SyncRun.start start) events) :
    (Foundation.run SyncRun.step (SyncRun.start start) events).Holds start runPlan :=
  run_invariant (SyncRun.Holds start runPlan) (fun _ _ h hown => h.step hown)
    (SyncRun.start_holds hplan hmode) hown

/-! ## Worker limits -/

/-- The worker limits are those of the start, and no pool is above its own. -/
def SyncRun.WithinLimits (start : SyncState) (run : SyncRun) : Prop :=
  transferWorkers run.sync = transferWorkers start ∧
    deleteWorkers run.sync = deleteWorkers start ∧
    ∀ e, run.sync.execution = some e →
      e.activeTransfers ≤ transferWorkers start ∧ e.activeDeleteBatches ≤ deleteWorkers start

theorem phaseLoop_active (sync : SyncState) (fuel : Nat) (e : SyncExecutionState) :
    (phaseLoop sync fuel e).activeTransfers = e.activeTransfers ∧
      (phaseLoop sync fuel e).activeDeleteBatches = e.activeDeleteBatches := by
  refine phaseLoop_invariant
    (fun x => x.activeTransfers = e.activeTransfers ∧
      x.activeDeleteBatches = e.activeDeleteBatches) ?_ fuel ⟨rfl, rfl⟩
  intro x x' hx hstep
  rcases phaseStep_cases hstep with ⟨-, -, -, rfl⟩ | ⟨-, -, -, hnext⟩ | ⟨-, -, -, rfl⟩
  · exact hx
  · rcases hnext with ⟨-, rfl⟩ | ⟨-, -, -, rfl⟩ | ⟨-, -, rfl⟩ <;> exact hx
  · exact hx

theorem resultHandled_active_le (e : SyncExecutionState) (ignoreErrors : Bool)
    (result : SyncRunResult) :
    (e.resultHandled ignoreErrors result).activeTransfers ≤ e.activeTransfers ∧
      (e.resultHandled ignoreErrors result).activeDeleteBatches ≤ e.activeDeleteBatches := by
  rcases result with (_ | _) | (_ | _)
  · exact ⟨Nat.sub_le _ _, le_rfl⟩
  · exact ⟨Nat.sub_le _ _, le_rfl⟩
  · exact ⟨le_rfl, Nat.sub_le _ _⟩
  · exact ⟨le_rfl, Nat.sub_le _ _⟩

theorem transferWorkers_congr {a b : SyncState} (h : a.tuning = b.tuning) :
    transferWorkers a = transferWorkers b := by
  simp only [transferWorkers, h]

theorem deleteWorkers_congr {a b : SyncState} (h : a.deleteGuardrails = b.deleteGuardrails) :
    deleteWorkers a = deleteWorkers b := by
  simp only [deleteWorkers, h]

theorem startExecution_frame (sync : SyncState) :
    (startExecution sync).tuning = sync.tuning ∧
      (startExecution sync).deleteGuardrails = sync.deleteGuardrails := by
  unfold startExecution startCopyExecution startSyncExecution
  cases sync.mode <;> cases sync.runPlan <;> exact ⟨rfl, rfl⟩

theorem Dispatched.withinLimits {sync after : SyncState} {x next : SyncExecutionState}
    {specs : List PendingSyncTask} (h : Dispatched sync x after specs next)
    (hT : transferWorkers sync = transferWorkers start)
    (hD : deleteWorkers sync = deleteWorkers start)
    (hactiveT : x.activeTransfers ≤ transferWorkers start)
    (hactiveD : x.activeDeleteBatches ≤ deleteWorkers start)
    (issued inFlight : List PendingSyncTask) :
    SyncRun.WithinLimits start ⟨after, issued, inFlight⟩ := by
  refine ⟨?_, ?_, ?_⟩
  · rw [transferWorkers_congr h.tuning_eq, hT]
  · rw [deleteWorkers_congr h.guardrails_eq, hD]
  · intro e he
    rw [h.execution_eq, Option.some.injEq] at he
    subst he
    rw [← hT] at hactiveT ⊢
    rw [← hD] at hactiveD ⊢
    exact h.active_le hactiveT hactiveD

theorem SyncRun.WithinLimits.step (h : run.WithinLimits start) (hholds : run.Holds start runPlan)
    {event : SyncRunEvent} (hown : run.Own event) (hkeeps : run.KeepsWorkers event) :
    (run.step event).WithinLimits start := by
  obtain ⟨e, hcoherent, -⟩ := hholds
  obtain ⟨hT, hD, hactive⟩ := h
  obtain ⟨hactiveT, hactiveD⟩ := hactive e hcoherent.execution_eq
  cases event with
  | deliver i answer =>
      cases hi : run.inFlight[i]? with
      | none =>
          rw [SyncRun.deliver_none hi]
          exact ⟨hT, hD, hactive⟩
      | some task =>
          obtain ⟨before, specs, next, -, -, hguard, htuning, hd, -⟩ :=
            SyncRun.deliver_spec hcoherent hi answer
          obtain ⟨hleT, hleD⟩ := resultHandled_active_le e
            start.deleteGuardrails.ignoreErrors (task.intoTask answer)
          obtain ⟨hloopT, hloopD⟩ := phaseLoop_active before PHASE_TURNS
            (e.resultHandled start.deleteGuardrails.ignoreErrors (task.intoTask answer))
          exact hd.withinLimits ((transferWorkers_congr htuning).trans hT)
            ((deleteWorkers_congr hguard).trans hD) (by omega) (by omega) _ _
  | edit after =>
      refine ⟨hkeeps.1.trans hT, hkeeps.2.trans hD, ?_⟩
      intro e' he'
      exact hactive e' (hown.execution_eq ▸ he')

theorem SyncRun.start_withinLimits (hplan : start.runPlan = some runPlan)
    (hmode : start.mode ≠ .diff) : (SyncRun.start start).WithinLimits start := by
  obtain ⟨e, hcoherent⟩ := coherent_start hplan hmode
  obtain ⟨next, hd, -, -⟩ := hcoherent.dispatch
  have hactiveT := hcoherent.accounted.activeTransfers_eq
  have hactiveD := hcoherent.accounted.activeDeletes_eq
  rw [List.countP_nil] at hactiveT hactiveD
  obtain ⟨hloopT, hloopD⟩ := phaseLoop_active (startExecution start) PHASE_TURNS e
  exact hd.withinLimits (transferWorkers_congr (startExecution_frame start).1)
    (deleteWorkers_congr (startExecution_frame start).2) (by omega) (by omega) _ _

theorem SyncRun.run_withinLimits (hplan : start.runPlan = some runPlan)
    (hmode : start.mode ≠ .diff) {events : List SyncRunEvent}
    (hown : Along SyncRun.step SyncRun.Own (SyncRun.start start) events)
    (hkeeps : Along SyncRun.step SyncRun.KeepsWorkers (SyncRun.start start) events) :
    (Foundation.run SyncRun.step (SyncRun.start start) events).WithinLimits start := by
  have hboth := run_invariant
    (fun run => SyncRun.Holds start runPlan run ∧ SyncRun.WithinLimits start run)
    (fun _ _ h hown => ⟨h.1.step hown.1, h.2.step h.1 hown.1 hown.2⟩)
    ⟨SyncRun.start_holds hplan hmode, SyncRun.start_withinLimits hplan hmode⟩
    (hown.and hkeeps)
  exact hboth.2

/-! ## Final phases -/

def SyncExecutionPhase.Final (phase : SyncExecutionPhase) : Prop :=
  phase = .done ∨ phase = .stopped

theorem phaseLoop_of_final {sync : SyncState} (h : e.phase.Final) (fuel : Nat) :
    phaseLoop sync fuel e = e := by
  have hnone : phaseStep sync e = none := by
    rcases h with h | h <;> simp [phaseStep, h]
  cases fuel with
  | zero => rfl
  | succ fuel => simp only [phaseLoop, hnone]

theorem Dispatched.phase_eq {sync after : SyncState} {x next : SyncExecutionState}
    {specs : List PendingSyncTask} (h : Dispatched sync x after specs next) :
    next.phase = x.phase ∧ next.transferFailed = x.transferFailed := by
  obtain ⟨n, m, hpulled, -, -⟩ := h.pulled
  obtain ⟨_, _, _, _, rfl⟩ := hpulled.next_eq
  exact ⟨rfl, rfl⟩

/-- A finished run has nothing in flight. -/
theorem Coherent.phase_ne_done {sync : SyncState} {issued inFlight : List PendingSyncTask}
    (h : Coherent start runPlan sync e issued inFlight) {i : Nat} {task : PendingSyncTask}
    (hi : inFlight[i]? = some task) : e.phase ≠ .done := by
  intro hdone
  have hphased := h.phased
  simp only [Phased, hdone] at hphased
  cases hkind : task.isTransfer with
  | true =>
      have hactive := h.accounted.activeTransfers_pos hi hkind
      omega
  | false =>
      have hactive := h.accounted.activeDeletes_pos hi (by simp [PendingSyncTask.isDelete, hkind])
      omega

/-- A result that arrives in a final phase leaves the phase as it is: failures stop a
stopped run again. -/
theorem Coherent.resultHandled_final {sync : SyncState} {issued inFlight : List PendingSyncTask}
    (h : Coherent start runPlan sync e issued inFlight) (hfinal : e.phase.Final) {i : Nat}
    {task : PendingSyncTask} (hi : inFlight[i]? = some task) (ignoreErrors : Bool)
    (answer : Except String Unit) :
    (e.resultHandled ignoreErrors (task.intoTask answer)).phase = e.phase := by
  have hstopped : e.phase = .stopped := hfinal.resolve_left (h.phase_ne_done hi)
  rcases task.intoTask answer with (_ | _) | (_ | _) <;>
    simp [SyncExecutionState.resultHandled, SyncExecutionState.transferFinished,
      SyncExecutionState.deleteFinished, hstopped]

/-- The run is coherent and in this phase. -/
def SyncRun.InPhase (start : SyncState) (runPlan : SyncRunPlan) (phase : SyncExecutionPhase)
    (run : SyncRun) : Prop :=
  ∃ e, Coherent start runPlan run.sync e run.issued run.inFlight ∧ e.phase = phase

theorem SyncRun.InPhase.step {phase : SyncExecutionPhase}
    (h : run.InPhase start runPlan phase) (hfinal : phase.Final) {event : SyncRunEvent}
    (hown : run.Own event) :
    (run.step event).InPhase start runPlan phase := by
  obtain ⟨e, hcoherent, rfl⟩ := h
  cases event with
  | deliver i answer =>
      cases hi : run.inFlight[i]? with
      | none =>
          rw [SyncRun.deliver_none hi]
          exact ⟨e, hcoherent, rfl⟩
      | some task =>
          obtain ⟨before, specs, next, -, -, -, -, hd, -, hnext, -⟩ :=
            SyncRun.deliver_spec hcoherent hi answer
          have hsame := hcoherent.resultHandled_final hfinal hi
            start.deleteGuardrails.ignoreErrors answer
          rw [phaseLoop_of_final (hsame.symm ▸ hfinal)] at hd
          exact ⟨next, hnext, hd.phase_eq.1.trans hsame⟩
  | edit after => exact ⟨e, hcoherent.edited hown, rfl⟩

/-! ## Blocked deletes -/

/-- No delete is handed out from here on, unless errors are ignored. -/
def SyncExecutionState.Blocked (e : SyncExecutionState) : Prop :=
  e.phase.Final ∨ e.phase = .copying ∧ e.transferFailed = true

theorem SyncExecutionState.Blocked.loop {sync : SyncState} (h : e.Blocked)
    (hignore : sync.deleteGuardrails.ignoreErrors = false) (fuel : Nat) :
    (phaseLoop sync fuel e).Blocked := by
  refine phaseLoop_invariant SyncExecutionState.Blocked ?_ fuel h
  intro x x' hx hstep
  rcases phaseStep_cases hstep with ⟨hp, -⟩ | ⟨hp, -, -, hnext⟩ | ⟨-, -, -, rfl⟩
  · rcases hx with (hx | hx) | ⟨hx, -⟩ <;> rw [hp] at hx <;> cases hx
  · rcases hnext with ⟨-, rfl⟩ | ⟨-, -, -, rfl⟩ | ⟨-, hclear, rfl⟩
    · exact .inl (.inl rfl)
    · exact .inl (.inl rfl)
    · rcases hx with (hx | hx) | ⟨-, hfailed⟩
      · rw [hp] at hx
        cases hx
      · rw [hp] at hx
        cases hx
      · exact absurd ⟨hfailed, hignore⟩ hclear
  · exact .inl (.inl rfl)

/-- A blocked execution hands out no delete and stays blocked. -/
theorem Dispatched.blocked {sync after : SyncState} {x next : SyncExecutionState}
    {specs : List PendingSyncTask} (h : Dispatched sync x after specs next) (hx : x.Blocked) :
    next.Blocked ∧ specs.filter (·.isDelete) = [] := by
  obtain ⟨hphase, hfailed⟩ := h.phase_eq
  obtain ⟨n, m, -, hcopying, -⟩ := h.pulled
  refine ⟨by rwa [SyncExecutionState.Blocked, hphase, hfailed], ?_⟩
  rcases hx with hx | ⟨hx, -⟩
  · rw [h.final hx]
    rfl
  · have hcount := (hcopying hx).2
    rwa [List.countP_eq_length_filter, List.length_eq_zero_iff] at hcount

theorem SyncExecutionState.Blocked.resultHandled (h : e.Blocked) (ignoreErrors : Bool)
    (result : SyncRunResult) :
    (e.resultHandled ignoreErrors result).Blocked := by
  cases result with
  | copyStepFinished result =>
      cases result with
      | ok item => exact h
      | error message =>
          have hduring : e.phase ≠ .deletingDuring := by
            rcases h with (h | h) | ⟨h, -⟩ <;> rw [h] <;> decide
          have hphase : (e.resultHandled ignoreErrors
              (.copyStepFinished (.error message))).phase = e.phase :=
            if_neg fun hstop => hduring hstop.2
          rw [SyncExecutionState.Blocked, hphase]
          exact h.imp_right fun hcopying => ⟨hcopying.1, rfl⟩
  | deleteBatchFinished result =>
      cases result with
      | ok batch => exact h
      | error message =>
          by_cases hstop : ignoreErrors = false
          · exact .inl (.inr (if_pos hstop))
          · have hphase : (e.resultHandled ignoreErrors
                (.deleteBatchFinished (.error message))).phase = e.phase := if_neg hstop
            rw [SyncExecutionState.Blocked, hphase]
            exact h

/-- A failed task of the run blocks it, whatever the phase it was handed out in. -/
theorem Coherent.blocked_of_error {sync : SyncState} {issued inFlight : List PendingSyncTask}
    (h : Coherent start runPlan sync e issued inFlight) {i : Nat} {task : PendingSyncTask}
    (hi : inFlight[i]? = some task) (error : String) :
    (e.resultHandled false (task.intoTask (.error error))).Blocked := by
  cases task with
  | deleteRemote connectionId bucket keys bytes label => exact .inl (.inr rfl)
  | deleteLocal path bytes label => exact .inl (.inr rfl)
  | transfer item =>
      have hactive := h.accounted.activeTransfers_pos hi rfl
      have hfinished := h.accounted.finished_eq
      have hphased := h.phased
      show SyncExecutionState.Blocked (e.transferFinished false (.error error))
      unfold SyncExecutionState.Blocked SyncExecutionState.transferFinished
      cases hphase : e.phase with
      | deletingBefore =>
          simp only [Phased, hphase] at hphased
          omega
      | copying => exact .inr ⟨by simp, rfl⟩
      | deletingDuring => exact .inl (.inr (by simp))
      | deletingAfter =>
          simp only [Phased, hphase] at hphased
          omega
      | done => exact .inl (.inl (by simp))
      | stopped => exact .inl (.inr (by simp))

/-- The run is coherent and blocked, with these deletes handed out. -/
def SyncRun.Stuck (start : SyncState) (runPlan : SyncRunPlan) (deletes : List PendingSyncTask)
    (run : SyncRun) : Prop :=
  run.issued.filter (·.isDelete) = deletes ∧
    ∃ e, Coherent start runPlan run.sync e run.issued run.inFlight ∧ e.Blocked

theorem SyncRun.stuck_of_blocked (hignore : start.deleteGuardrails.ignoreErrors = false)
    (hcoherent : Coherent start runPlan run.sync e run.issued run.inFlight) {i : Nat}
    {task : PendingSyncTask} (hi : run.inFlight[i]? = some task) (answer : Except String Unit)
    (hblocked : (e.resultHandled false (task.intoTask answer)).Blocked) :
    (run.step (.deliver i answer)).Stuck start runPlan (run.issued.filter (·.isDelete)) := by
  obtain ⟨before, specs, next, -, -, hguard, -, hd, hissued, hnext, -⟩ :=
    SyncRun.deliver_spec hcoherent hi answer
  rw [hignore] at hd
  have hbefore : before.deleteGuardrails.ignoreErrors = false := by
    rw [hguard, hcoherent.guardrails_eq, hignore]
  obtain ⟨hstill, hnone⟩ := hd.blocked (hblocked.loop hbefore PHASE_TURNS)
  refine ⟨?_, next, hnext, hstill⟩
  rw [hissued, List.filter_append, hnone, List.append_nil]

theorem SyncRun.Stuck.step {deletes : List PendingSyncTask}
    (h : run.Stuck start runPlan deletes)
    (hignore : start.deleteGuardrails.ignoreErrors = false) {event : SyncRunEvent}
    (hown : run.Own event) : (run.step event).Stuck start runPlan deletes := by
  obtain ⟨hdeletes, e, hcoherent, hblocked⟩ := h
  cases event with
  | deliver i answer =>
      cases hi : run.inFlight[i]? with
      | none =>
          rw [SyncRun.deliver_none hi]
          exact ⟨hdeletes, e, hcoherent, hblocked⟩
      | some task =>
          rw [← hdeletes]
          exact SyncRun.stuck_of_blocked hignore hcoherent hi answer
            (hblocked.resultHandled false (task.intoTask answer))
  | edit after => exact ⟨hdeletes, e, hcoherent.edited hown, hblocked⟩

end

/-! ## Phase ordering -/

section

variable {start sync : SyncState} {runPlan : SyncRunPlan} {e : SyncExecutionState}
  {issued inFlight : List PendingSyncTask}

theorem Coherent.transfer_issued (h : Coherent start runPlan sync e issued inFlight)
    (hsome : ∃ task ∈ issued, task.isTransfer) : 0 < e.nextTransferIndex := by
  have hpos : 0 < issued.countP (·.isTransfer) := List.countP_pos_iff.mpr hsome
  rw [h.accounted.handsOut.countP_eq, List.length_take] at hpos
  omega

theorem Coherent.delete_issued (h : Coherent start runPlan sync e issued inFlight)
    (hsome : ∃ task ∈ issued, task.isDelete) : 0 < e.nextDeleteIndex := by
  obtain ⟨task, hmem, hdelete⟩ := hsome
  by_contra hzero
  have hstart : e.nextDeleteIndex = 0 := by omega
  have htargets := h.accounted.handsOut.deletes_eq
  rw [hstart, List.take_zero, List.map_nil, List.flatMap_eq_nil_iff] at htargets
  exact h.accounted.handsOut.targets_ne task hmem hdelete (htargets task hmem)

theorem Coherent.transfers_done (h : Coherent start runPlan sync e issued inFlight)
    (hissued : e.transfersIssued) :
    issued.flatMap (·.transferItems) = runPlan.transfers := by
  rw [h.accounted.handsOut.transfers_eq, List.take_of_length_le hissued, h.plan_eq]

theorem Coherent.deletes_done (h : Coherent start runPlan sync e issued inFlight)
    (hissued : e.deletesIssued) :
    issued.flatMap (·.deleteTargets) = runPlan.deletes.map (·.destination) := by
  rw [h.accounted.handsOut.deletes_eq, List.take_of_length_le hissued, h.plan_eq]

theorem Coherent.no_transfer_inFlight (h : Coherent start runPlan sync e issued inFlight)
    (hidle : e.activeTransfers = 0) : ∀ task ∈ inFlight, task.isTransfer = false := by
  rw [h.accounted.activeTransfers_eq, List.countP_eq_zero] at hidle
  intro task hmem
  exact Bool.not_eq_true _ ▸ hidle task hmem

theorem Coherent.no_delete_inFlight (h : Coherent start runPlan sync e issued inFlight)
    (hidle : e.activeDeleteBatches = 0) : ∀ task ∈ inFlight, task.isDelete = false := by
  rw [h.accounted.activeDeletes_eq, List.countP_eq_zero] at hidle
  intro task hmem
  exact Bool.not_eq_true _ ▸ hidle task hmem

theorem Coherent.copy (h : Coherent start runPlan sync e issued inFlight)
    (hmode : start.mode = .copy) : e.nextDeleteIndex = 0 ∧ e.activeDeleteBatches = 0 := by
  have hphased := h.phased
  rw [hmode] at hphased
  unfold Phased at hphased
  cases hphase : e.phase <;> simp_all

/-- Deleting first: once a transfer is out, the deletes are out and answered. A copy
has none to wait for. -/
theorem Coherent.before (h : Coherent start runPlan sync e issued inFlight)
    (hkind : start.mode = .sync ∨ runPlan.deletes = [])
    (hbefore : start.policy.deletePhase = .before)
    (hnext : 0 < e.nextTransferIndex) : e.deletesIssued ∧ e.activeDeleteBatches = 0 := by
  rcases h.total_eq with ⟨hmode, -⟩ | ⟨hmode, -⟩
  · have hnil : runPlan.deletes = [] := hkind.resolve_left (by rw [hmode]; decide)
    exact ⟨deletesIssued_of_nil (h.plan_eq ▸ hnil), (h.copy hmode).2⟩
  have hphased := h.phased
  unfold Phased at hphased
  cases hphase : e.phase with
  | deletingBefore =>
      simp only [hphase] at hphased
      omega
  | copying =>
      simp only [hphase] at hphased
      exact ⟨hphased.2.1 hmode hbefore, hphased.1⟩
  | deletingDuring => simp [hphase, hbefore] at hphased
  | deletingAfter => simp [hphase, hbefore] at hphased
  | done =>
      simp only [hphase] at hphased
      exact ⟨hphased.2.2.2.1 hmode hbefore, hphased.2.1⟩
  | stopped =>
      simp only [hphase] at hphased
      have hzero := hphased.2.1 hbefore
      omega

/-- Deleting last: once a delete is out, the transfers are out and answered. -/
theorem Coherent.after (h : Coherent start runPlan sync e issued inFlight)
    (hafter : start.policy.deletePhase = .after) (hnext : 0 < e.nextDeleteIndex) :
    e.transfersIssued ∧ e.activeTransfers = 0 := by
  have hphased := h.phased
  unfold Phased at hphased
  cases hphase : e.phase with
  | deletingBefore => simp [hphase, hafter] at hphased
  | copying =>
      simp only [hphase, hafter, reduceCtorEq, and_false, or_false] at hphased
      omega
  | deletingDuring => simp [hphase, hafter] at hphased
  | deletingAfter =>
      simp only [hphase] at hphased
      exact hphased.2.2
  | done =>
      simp only [hphase] at hphased
      exact ⟨hphased.2.2.1, hphased.1⟩
  | stopped =>
      simp only [hphase] at hphased
      exact hphased.2.2 hafter

/-- The bytes of a prepared plan bound the bytes done. -/
theorem Coherent.bytesDone_le (h : Coherent start runPlan sync e issued inFlight)
    {platform : Platform} {planned : SyncState} {plan : SyncPlan}
    (hprepared : prepareSyncRunPlan platform planned plan = .ok runPlan)
    (hlt : itemBytes runPlan.transfers + itemBytes runPlan.deletes < 2 ^ 64) :
    e.bytesDone ≤ e.totalBytes := by
  obtain ⟨-, -, htransfers, hdeletes⟩ := prepareSyncRunPlan_ok hprepared
  have hT : runPlan.totalTransferBytes = itemBytes runPlan.transfers :=
    htransfers.trans (sumU64_of_lt (show itemBytes runPlan.transfers < _ by omega))
  have hD : runPlan.totalDeleteBytes = itemBytes runPlan.deletes :=
    hdeletes.trans (sumU64_of_lt (show itemBytes runPlan.deletes < _ by omega))
  have hbytes := h.accounted.bytes_le (by rw [h.plan_eq]; exact hlt)
  have htakeT := itemBytes_take_le runPlan.transfers e.nextTransferIndex
  have htakeD := itemBytes_take_le runPlan.deletes e.nextDeleteIndex
  rw [h.plan_eq] at hbytes
  rcases h.total_eq with ⟨hcopy, htotal⟩ | ⟨-, htotal⟩
  · have hnone : itemBytes (runPlan.deletes.take e.nextDeleteIndex) = 0 := by
      rw [(h.copy hcopy).1]
      rfl
    omega
  · rw [htotal, hT, hD, addU64_of_lt hlt]
    omega

end

/-- Phase ordering. In a run that deletes first no transfer is handed out before every
delete is handed out and answered; in one that deletes last no delete is handed out
before every transfer is; a copy hands out no delete; a failure blocks all further
deletes unless errors are ignored; and final phases are not left. -/
theorem run_phases_ordered {start : SyncState} {runPlan : SyncRunPlan}
    (hplan : start.runPlan = some runPlan) (hmode : start.mode ≠ .diff)
    {events : List SyncRunEvent}
    (hown : Along SyncRun.step SyncRun.Own (SyncRun.start start) events) :
    let final := run SyncRun.step (SyncRun.start start) events
    (start.mode = .sync ∨ runPlan.deletes = [] → start.policy.deletePhase = .before →
      (∃ task ∈ final.issued, task.isTransfer) →
        final.issued.flatMap (·.deleteTargets) = runPlan.deletes.map (·.destination) ∧
          ∀ task ∈ final.inFlight, task.isDelete = false) ∧
    (start.policy.deletePhase = .after → (∃ task ∈ final.issued, task.isDelete) →
        final.issued.flatMap (·.transferItems) = runPlan.transfers ∧
          ∀ task ∈ final.inFlight, task.isTransfer = false) ∧
    (start.mode = .copy → ∀ task ∈ final.issued, task.isDelete = false) ∧
    (start.deleteGuardrails.ignoreErrors = false →
      ∀ earlier later i error,
        events = earlier ++ .deliver i (.error error) :: later →
        i < (run SyncRun.step (SyncRun.start start) earlier).inFlight.length →
        final.issued.filter (·.isDelete) =
          (run SyncRun.step (SyncRun.start start) earlier).issued.filter (·.isDelete)) ∧
    (∀ earlier later e, events = earlier ++ later →
      (run SyncRun.step (SyncRun.start start) earlier).sync.execution = some e →
      e.phase.Final →
        ∃ e', final.sync.execution = some e' ∧ e'.phase = e.phase) := by
  intro final
  obtain ⟨e, hcoherent, -⟩ := SyncRun.run_holds hplan hmode hown
  refine ⟨?_, ?_, ?_, ?_, ?_⟩
  · intro hkind hbefore hsome
    obtain ⟨hissued, hidle⟩ := hcoherent.before hkind hbefore (hcoherent.transfer_issued hsome)
    exact ⟨hcoherent.deletes_done hissued, hcoherent.no_delete_inFlight hidle⟩
  · intro hafter hsome
    obtain ⟨hissued, hidle⟩ := hcoherent.after hafter (hcoherent.delete_issued hsome)
    exact ⟨hcoherent.transfers_done hissued, hcoherent.no_transfer_inFlight hidle⟩
  · intro hcopy task hmem
    by_contra hdelete
    have hnext := hcoherent.delete_issued ⟨task, hmem, by simpa using hdelete⟩
    have hzero := (hcoherent.copy hcopy).1
    omega
  · intro hignore earlier later i error hevents hlt
    subst hevents
    obtain ⟨hearlier, -, hlater⟩ := (along_append _ earlier _).mp hown
    obtain ⟨x, hx, -⟩ := SyncRun.run_holds hplan hmode hearlier
    have hi := List.getElem?_eq_getElem hlt
    have hstuck := SyncRun.stuck_of_blocked hignore hx hi (.error error)
      (hx.blocked_of_error hi error)
    have hend := run_invariant (SyncRun.Stuck start runPlan _)
      (fun _ _ h hown => h.step hignore hown) hstuck hlater
    show List.filter _ (run SyncRun.step (SyncRun.start start) (earlier ++ _ :: later)).issued = _
    rw [run_append, run_cons]
    exact hend.1
  · intro earlier later x hevents hexec hfinal
    subst hevents
    obtain ⟨hearlier, hlater⟩ := (along_append _ earlier _).mp hown
    obtain ⟨y, hy, -⟩ := SyncRun.run_holds hplan hmode hearlier
    have hsame : x = y := Option.some.inj (hexec.symm.trans hy.execution_eq)
    subst hsame
    obtain ⟨z, hz, hphase⟩ := run_invariant (SyncRun.InPhase start runPlan x.phase)
      (fun _ _ h hown => h.step hfinal hown) ⟨x, hy, rfl⟩ hlater
    refine ⟨z, ?_, hphase⟩
    show (run SyncRun.step (SyncRun.start start) (earlier ++ later)).sync.execution = _
    rw [run_append]
    exact hz.execution_eq

/-- Two deletes and one transfer between two buckets. -/
def twoDeletesPlan : SyncRunPlan where
  transfers :=
    [⟨['a'], .create, .s3 CURRENT_CONNECTION_ID ['p'] ['a'],
      .s3 CURRENT_CONNECTION_ID ['q'] ['a'], .serverSideCopy, 7⟩]
  deletes :=
    [⟨['x'], .delete, .s3 CURRENT_CONNECTION_ID ['q'] ['x'],
        .s3 CURRENT_CONNECTION_ID ['q'] ['x'], .deleteRemote, 2⟩,
      ⟨['y'], .delete, .s3 CURRENT_CONNECTION_ID ['q'] ['y'],
        .s3 CURRENT_CONNECTION_ID ['q'] ['y'], .deleteRemote, 3⟩]
  totalTransferBytes := 7
  totalDeleteBytes := 5
  hasClientRelay := false

def deletesThenCopy : SyncState :=
  { SyncState.betweenBuckets ['p'] ['q'] with
    policy := { SyncPreset.converge.policy with deletePhase := .before }
    runPlan := some twoDeletesPlan }

theorem run_phases_ordered_deletes_first :
    (run SyncRun.step (SyncRun.start deletesThenCopy) [.deliver 0 (.ok ())]).issued.flatMap
        (·.deleteTargets) = twoDeletesPlan.deletes.map (·.destination) ∧
      ∀ task ∈ (run SyncRun.step (SyncRun.start deletesThenCopy) [.deliver 0 (.ok ())]).inFlight,
        task.isDelete = false := by
  have hplan : deletesThenCopy.runPlan = some twoDeletesPlan := rfl
  have hown : Along SyncRun.step SyncRun.Own (SyncRun.start deletesThenCopy)
      [.deliver 0 (.ok ())] := ⟨trivial, trivial⟩
  exact (run_phases_ordered hplan (by decide) hown).1 (.inl rfl) rfl (by decide)

/-! ## Exactly-once dispatch -/

/-- Exactly-once dispatch. What is handed out is a prefix of the transfers and a prefix
of the deletes, in plan order; the counters count the tasks in flight, within the
worker limits while these are constant; the bytes done stay below the total; the run
is over or has work in flight; and a run that is done left nothing behind. -/
theorem run_exactly_once {start : SyncState} {runPlan : SyncRunPlan}
    (hplan : start.runPlan = some runPlan) (hmode : start.mode ≠ .diff)
    {events : List SyncRunEvent}
    (hown : Along SyncRun.step SyncRun.Own (SyncRun.start start) events) :
    let final := run SyncRun.step (SyncRun.start start) events
    ∃ e, final.sync.execution = some e ∧
      final.issued.flatMap (·.transferItems) = runPlan.transfers.take e.nextTransferIndex ∧
      final.issued.flatMap (·.deleteTargets) =
        (runPlan.deletes.take e.nextDeleteIndex).map (·.destination) ∧
      e.nextTransferIndex = e.completedTransfers + e.failedTransfers + e.activeTransfers ∧
      e.activeTransfers = final.inFlight.countP (·.isTransfer) ∧
      e.activeDeleteBatches = final.inFlight.countP (·.isDelete) ∧
      (Along SyncRun.step SyncRun.KeepsWorkers (SyncRun.start start) events →
        e.activeTransfers ≤ transferWorkers start ∧
          e.activeDeleteBatches ≤ deleteWorkers start) ∧
      ((∃ platform planned plan, prepareSyncRunPlan platform planned plan = .ok runPlan) →
        itemBytes runPlan.transfers + itemBytes runPlan.deletes < 2 ^ 64 →
        e.bytesDone ≤ e.totalBytes) ∧
      (e.phase = .done ∨ e.phase = .stopped ∨ final.inFlight ≠ []) ∧
      (e.phase = .done →
        (final.issued.flatMap (·.transferItems) = runPlan.transfers ∧ e.activeTransfers = 0) ∧
        (start.mode = .sync → e.deletePhaseSkipped = false →
          final.issued.flatMap (·.deleteTargets) = runPlan.deletes.map (·.destination) ∧
            e.activeDeleteBatches = 0)) := by
  intro final
  obtain ⟨e, hcoherent, hbusy⟩ := SyncRun.run_holds hplan hmode hown
  have haccounted := hcoherent.accounted
  refine ⟨e, hcoherent.execution_eq, ?_, ?_, haccounted.finished_eq,
    haccounted.activeTransfers_eq, haccounted.activeDeletes_eq, ?_, ?_, hbusy, ?_⟩
  · rw [haccounted.handsOut.transfers_eq, hcoherent.plan_eq]
  · rw [haccounted.handsOut.deletes_eq, hcoherent.plan_eq]
  · intro hkeeps
    exact (SyncRun.run_withinLimits hplan hmode hown hkeeps).2.2 e hcoherent.execution_eq
  · rintro ⟨platform, planned, plan, hprepared⟩ hlt
    exact hcoherent.bytesDone_le hprepared hlt
  · intro hdone
    have hphased := hcoherent.phased
    simp only [Phased, hdone] at hphased
    obtain ⟨hidleT, hidleD, hissuedT, -, hissuedD, -⟩ := hphased
    exact ⟨⟨hcoherent.transfers_done hissuedT, hidleT⟩,
      fun hsync hskip => ⟨hcoherent.deletes_done (hissuedD hsync hskip), hidleD⟩⟩

/-- The run above, once both of its tasks are answered. -/
theorem run_exactly_once_two_tasks :
    ∃ e, (run SyncRun.step (SyncRun.start deletesThenCopy)
        [.deliver 0 (.ok ()), .deliver 0 (.ok ())]).sync.execution = some e ∧
      e.phase = .done ∧ e.activeTransfers = 0 ∧ e.nextTransferIndex = 1 := by
  have hplan : deletesThenCopy.runPlan = some twoDeletesPlan := rfl
  have hown : Along SyncRun.step SyncRun.Own (SyncRun.start deletesThenCopy)
      [.deliver 0 (.ok ()), .deliver 0 (.ok ())] := ⟨trivial, trivial, trivial⟩
  obtain ⟨e, hexec, -, -, -, -, -, -, -, -, hdone⟩ :=
    run_exactly_once hplan (by decide) hown
  have hfacts : ((run SyncRun.step (SyncRun.start deletesThenCopy)
      [.deliver 0 (.ok ()), .deliver 0 (.ok ())]).sync.execution.map fun e =>
        (e.phase, e.nextTransferIndex)) = some (.done, 1) := by decide
  rw [hexec] at hfacts
  obtain ⟨hphase, hnext⟩ := Prod.mk.inj (Option.some.inj hfacts)
  exact ⟨e, hexec, hphase, (hdone hphase).1.2, hnext⟩

end AbixioUi
