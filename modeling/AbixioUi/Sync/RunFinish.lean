import AbixioUi.Sync.RunOrder

/-! # When a run says that it is finished

A dispatch that hands out nothing reports the end of the run. With other tasks in
flight that report is early: their results still arrive, and may be followed by
further work. The results here say which deliveries lead to it.
-/

namespace AbixioUi

open Foundation

/-! ## What a dispatch reports -/

/-- The worker loops and the phase loop leave the report to the user alone. -/
def SameReport (before after : SyncExecutionState) : Prop :=
  after.running = before.running ∧ after.summary = before.summary

theorem SameReport.trans {a b c : SyncExecutionState} (h : SameReport a b)
    (h' : SameReport b c) : SameReport a c :=
  ⟨h'.1.trans h.1, h'.2.trans h.2⟩

theorem startTransfers_sameReport (workers fuel : Nat) (e : SyncExecutionState) :
    SameReport e (startTransfers workers fuel e).1 := by
  induction fuel generalizing e with
  | zero => exact ⟨rfl, rfl⟩
  | succ fuel ih =>
      unfold startTransfers
      split
      next =>
        cases hnext : nextTransferSpec e with
        | none => exact ⟨rfl, rfl⟩
        | some pulled =>
            have hsame : SameReport e pulled.2 := by
              unfold nextTransferSpec at hnext
              split at hnext
              next => cases hnext
              next =>
                rw [← Option.some.inj hnext]
                exact ⟨rfl, rfl⟩
            exact hsame.trans (ih { pulled.2 with activeTransfers := pulled.2.activeTransfers + 1 })
      next => exact ⟨rfl, rfl⟩

theorem startDeletes_sameReport (workers fuel : Nat) (e : SyncExecutionState) :
    SameReport e (startDeletes workers fuel e).1 := by
  induction fuel generalizing e with
  | zero => exact ⟨rfl, rfl⟩
  | succ fuel ih =>
      unfold startDeletes
      split
      next =>
        cases hnext : nextDeleteBatchSpec e with
        | none => exact ⟨rfl, rfl⟩
        | some pulled =>
            have hsame : SameReport e pulled.2 := by
              unfold nextDeleteBatchSpec at hnext
              split at hnext
              next => cases hnext
              next =>
                split at hnext
                next =>
                  rw [← Option.some.inj hnext]
                  exact ⟨rfl, rfl⟩
                next =>
                  rw [← Option.some.inj hnext]
                  exact ⟨rfl, rfl⟩
            exact hsame.trans
              (ih { pulled.2 with activeDeleteBatches := pulled.2.activeDeleteBatches + 1 })
      next => exact ⟨rfl, rfl⟩

theorem dispatchPhase_sameReport (sync : SyncState) (e : SyncExecutionState) :
    SameReport e (dispatchPhase sync e).2.1 := by
  have htransfers : SameReport e (dispatchTransfers sync e).1 := startTransfers_sameReport _ _ e
  unfold dispatchPhase
  cases e.phase with
  | deletingBefore => exact startDeletes_sameReport _ _ e
  | copying => exact htransfers
  | deletingDuring => exact htransfers.trans (startDeletes_sameReport _ _ _)
  | deletingAfter => exact startDeletes_sameReport _ _ e
  | done => exact ⟨rfl, rfl⟩
  | stopped => exact ⟨rfl, rfl⟩

theorem phaseLoop_sameReport (sync : SyncState) (fuel : Nat) (e : SyncExecutionState) :
    SameReport e (phaseLoop sync fuel e) := by
  refine phaseLoop_invariant (SameReport e) ?_ fuel ⟨rfl, rfl⟩
  intro x x' hx hstep
  rcases phaseStep_cases hstep with ⟨-, -, -, rfl⟩ | ⟨-, -, -, hnext⟩ | ⟨-, -, -, rfl⟩
  · exact hx
  · rcases hnext with ⟨-, rfl⟩ | ⟨-, -, -, rfl⟩ | ⟨-, -, rfl⟩ <;> exact hx
  · exact hx

/-- A dispatch that hands out nothing reports the end; any other keeps the report. -/
theorem dispatchSyncExecution_report {sync : SyncState} {e : SyncExecutionState}
    (h : sync.execution = some e) :
    ∃ next, (dispatchSyncExecution sync).1.execution = some next ∧
      ((dispatchSyncExecution sync).2 = [] → next.running = false ∧ next.summary.isSome) ∧
      ((dispatchSyncExecution sync).2 ≠ [] → SameReport e next) := by
  have hloop := phaseLoop_sameReport sync PHASE_TURNS e
  unfold dispatchSyncExecution
  simp only [h]
  generalize phaseLoop sync PHASE_TURNS e = e' at hloop ⊢
  split
  next => exact ⟨_, rfl, fun _ => ⟨rfl, rfl⟩, fun hsome => absurd rfl hsome⟩
  next =>
    have hphase := dispatchPhase_sameReport sync e'
    rcases hdispatch : dispatchPhase sync e' with ⟨stage, next, specs⟩
    rw [hdispatch] at hphase
    simp only
    split
    next => exact ⟨_, rfl, fun _ => ⟨rfl, rfl⟩, fun hsome => absurd rfl hsome⟩
    next hsome => exact ⟨_, rfl, fun hnil => absurd hnil hsome, fun _ => hloop.trans hphase⟩

/-! ## Work for free workers -/

/-- A transfer is left, and a worker is free for it once `freed` tasks have ended. -/
def SyncExecutionState.TransferWaits (sync : SyncState) (freed : Nat)
    (e : SyncExecutionState) : Prop :=
  ¬ e.transfersIssued ∧ e.activeTransfers - freed < transferWorkers sync

/-- A delete is left, and a worker is free for it once `freed` tasks have ended. -/
def SyncExecutionState.DeleteWaits (sync : SyncState) (freed : Nat)
    (e : SyncExecutionState) : Prop :=
  ¬ e.deletesIssued ∧ e.activeDeleteBatches - freed < deleteWorkers sync

/-- The phase has work for the workers that are free once these tasks have ended. -/
def SyncExecutionState.HasWork (sync : SyncState) (freedTransfers freedDeletes : Nat)
    (e : SyncExecutionState) : Prop :=
  match e.phase with
  | .deletingBefore | .deletingAfter => e.DeleteWaits sync freedDeletes
  | .copying => e.TransferWaits sync freedTransfers
  | .deletingDuring => e.TransferWaits sync freedTransfers ∨ e.DeleteWaits sync freedDeletes
  | .done | .stopped => False

theorem dispatchTransfers_ne_nil_iff (sync : SyncState) (e : SyncExecutionState) :
    (dispatchTransfers sync e).2 ≠ [] ↔ e.TransferWaits sync 0 := by
  constructor
  · intro hsome
    by_contra hwaits
    apply hsome
    unfold dispatchTransfers
    cases e.runPlan.transfers.length - e.nextTransferIndex with
    | zero => rfl
    | succ fuel =>
        have hstop : ¬ (e.activeTransfers < transferWorkers sync ∧ ¬ e.transfersIssued) :=
          fun hgo => hwaits ⟨hgo.2, hgo.1⟩
        simp only [startTransfers, if_neg hstop]
  · rintro ⟨hqueue, hfree⟩
    have hlt : e.nextTransferIndex < e.runPlan.transfers.length := Nat.lt_of_not_le hqueue
    exact startTransfers_ne_nil (by omega) hfree hqueue

theorem dispatchDeletes_ne_nil_iff (sync : SyncState) (e : SyncExecutionState) :
    (dispatchDeletes sync e).2 ≠ [] ↔ e.DeleteWaits sync 0 := by
  constructor
  · intro hsome
    by_contra hwaits
    apply hsome
    unfold dispatchDeletes
    cases e.runPlan.deletes.length - e.nextDeleteIndex with
    | zero => rfl
    | succ fuel =>
        unfold startDeletes
        split
        next hfree =>
          have hissued : e.deletesIssued := by
            by_contra hqueue
            exact hwaits ⟨hqueue, hfree⟩
          simp only [nextDeleteBatchSpec_eq_none hissued]
        next => rfl
  · rintro ⟨hqueue, hfree⟩
    have hlt : e.nextDeleteIndex < e.runPlan.deletes.length := Nat.lt_of_not_le hqueue
    exact startDeletes_ne_nil (by omega) hfree hqueue

theorem dispatchPhase_ne_nil_iff (sync : SyncState) (e : SyncExecutionState) :
    (dispatchPhase sync e).2.2 ≠ [] ↔ e.HasWork sync 0 0 := by
  unfold dispatchPhase SyncExecutionState.HasWork
  cases hphase : e.phase with
  | deletingBefore => exact dispatchDeletes_ne_nil_iff sync e
  | copying => exact dispatchTransfers_ne_nil_iff sync e
  | deletingDuring =>
      have hcount := startTransfers_countP_isDelete (transferWorkers sync)
        (e.runPlan.transfers.length - e.nextTransferIndex) e
      obtain ⟨n, hpulled⟩ : ∃ n, Pulled e n 0 (dispatchTransfers sync e).2
          (dispatchTransfers sync e).1 := startTransfers_pulled _ _ e
      have hactive := hpulled.activeDeleteBatches_eq
      rw [show (dispatchTransfers sync e).2.countP (·.isDelete) = 0 from hcount] at hactive
      obtain ⟨hplan, hindex⟩ := hpulled.deletes_eq
      -- the transfers handed out first leave the delete queue and its pool as they were
      have hdeletes : (dispatchTransfers sync e).1.DeleteWaits sync 0 ↔ e.DeleteWaits sync 0 := by
        simp only [SyncExecutionState.DeleteWaits, SyncExecutionState.deletesIssued, hplan,
          hindex, hactive, Nat.add_zero]
      show (dispatchTransfers sync e).2 ++
        (dispatchDeletes sync (dispatchTransfers sync e).1).2 ≠ [] ↔ _
      rw [Ne, List.append_eq_nil_iff, not_and_or]
      exact or_congr (dispatchTransfers_ne_nil_iff sync e)
        ((dispatchDeletes_ne_nil_iff sync _).trans hdeletes)
  | deletingAfter => exact dispatchDeletes_ne_nil_iff sync e
  | done => simp
  | stopped => simp

/-- Where the phase loop has nothing to do, a dispatch hands out what the phase has. -/
theorem dispatchSyncExecution_ne_nil_iff {sync : SyncState} {e : SyncExecutionState}
    (h : sync.execution = some e) (hstay : phaseStep sync e = none) :
    (dispatchSyncExecution sync).2 ≠ [] ↔ e.HasWork sync 0 0 := by
  have hloop : phaseLoop sync PHASE_TURNS e = e := by
    show phaseLoop sync (3 + 1) e = e
    simp only [phaseLoop, hstay]
  have hphase := dispatchPhase_ne_nil_iff sync e
  unfold dispatchSyncExecution
  simp only [h, hloop]
  split
  next hfinal =>
    have hnone : ¬ e.HasWork sync 0 0 := by
      unfold SyncExecutionState.HasWork
      rcases hfinal with hfinal | hfinal <;> rw [hfinal] <;> exact id
    simp [hnone]
  next =>
    rcases hdispatch : dispatchPhase sync e with ⟨stage, next, specs⟩
    rw [hdispatch] at hphase
    simp only
    split
    next hnil => simpa [hnil] using hphase
    next => exact hphase

/-! ## Results with other tasks in flight -/

section

variable {start sync : SyncState} {runPlan : SyncRunPlan} {e : SyncExecutionState}
  {issued inFlight : List PendingSyncTask}

/-- No phase is left while a task is in flight. -/
theorem Coherent.phaseStep_none (h : Coherent start runPlan sync e issued inFlight)
    (hbusy : inFlight ≠ []) : phaseStep sync e = none := by
  have hactive : 0 < e.activeTransfers + e.activeDeleteBatches := by
    rw [h.accounted.activeTransfers_eq, h.accounted.activeDeletes_eq]
    have hlen : 0 < inFlight.length := List.length_pos_iff.mpr hbusy
    have hsplit := List.length_eq_countP_add_countP (·.isTransfer) (l := inFlight)
    have hdelete : inFlight.countP (fun task => decide ¬ task.isTransfer = true) =
        inFlight.countP (·.isDelete) := by
      simp [PendingSyncTask.isDelete]
    omega
  have hphased := h.phased
  have hfinished := h.accounted.finished_eq
  cases hstep : phaseStep sync e with
  | none => rfl
  | some e' =>
      exfalso
      rcases phaseStep_cases hstep with ⟨hp, hidle, -⟩ | ⟨hp, hidle, -⟩ | ⟨hp, hidle, -⟩
      · simp only [Phased, hp] at hphased
        omega
      · simp only [Phased, hp] at hphased
        omega
      · rcases hp with ⟨-, hidleT, -⟩ | hp
        · omega
        · simp only [Phased, hp] at hphased
          omega

/-- A failed delete stops the run, and so does a failed transfer among the deletes. -/
def SyncExecutionState.StoppedBy (ignoreErrors : Bool) (task : PendingSyncTask)
    (answer : Except String Unit) (e : SyncExecutionState) : Prop :=
  ignoreErrors = false ∧ answer.isOk = false ∧ (task.isDelete ∨ e.phase = .deletingDuring)

/-- The number of tasks of each kind that end with this one. -/
def PendingSyncTask.freedTransfers (task : PendingSyncTask) : Nat :=
  if task.isTransfer then 1 else 0

def PendingSyncTask.freedDeletes (task : PendingSyncTask) : Nat :=
  if task.isDelete then 1 else 0

/-- The work left after a result, told from the execution before it. -/
theorem SyncExecutionState.hasWork_resultHandled (sync : SyncState) (e : SyncExecutionState)
    (ignoreErrors : Bool) (task : PendingSyncTask) (answer : Except String Unit) :
    (e.resultHandled ignoreErrors (task.intoTask answer)).HasWork sync 0 0 ↔
      ¬ e.StoppedBy ignoreErrors task answer ∧
        e.HasWork sync task.freedTransfers task.freedDeletes := by
  have hstay : ∀ e' : SyncExecutionState, e'.phase = e.phase → e'.runPlan = e.runPlan →
      e'.nextTransferIndex = e.nextTransferIndex → e'.nextDeleteIndex = e.nextDeleteIndex →
      e'.activeTransfers = e.activeTransfers - task.freedTransfers →
      e'.activeDeleteBatches = e.activeDeleteBatches - task.freedDeletes →
      (e'.HasWork sync 0 0 ↔ e.HasWork sync task.freedTransfers task.freedDeletes) := by
    intro e' hphase hplan hnextT hnextD hactiveT hactiveD
    simp only [SyncExecutionState.HasWork, SyncExecutionState.TransferWaits,
      SyncExecutionState.DeleteWaits, SyncExecutionState.transfersIssued,
      SyncExecutionState.deletesIssued, hphase, hplan, hnextT, hnextD, hactiveT, hactiveD,
      Nat.sub_zero]
  have hstopped : ∀ e' : SyncExecutionState, e'.phase = .stopped → ¬ e'.HasWork sync 0 0 := by
    intro e' hphase
    simp [SyncExecutionState.HasWork, hphase]
  by_cases hstop : e.StoppedBy ignoreErrors task answer
  · obtain ⟨hignore, hanswer, hkind⟩ := id hstop
    have hphase : (e.resultHandled ignoreErrors (task.intoTask answer)).phase = .stopped := by
      cases answer with
      | ok done => cases hanswer
      | error message =>
          cases task with
          | transfer item =>
              have hduring : e.phase = .deletingDuring := hkind.resolve_left Bool.false_ne_true
              exact if_pos ⟨hignore, hduring⟩
          | deleteRemote _ _ _ _ _ | deleteLocal _ _ _ => exact if_pos hignore
    simp only [hstopped _ hphase, hstop, not_true, false_and]
  · have hsame : (e.resultHandled ignoreErrors (task.intoTask answer)).HasWork sync 0 0 ↔
        e.HasWork sync task.freedTransfers task.freedDeletes := by
      cases answer with
      | ok done => cases task <;> exact hstay _ rfl rfl rfl rfl rfl rfl
      | error message =>
          cases task with
          | transfer item =>
              have hphase : ¬ (ignoreErrors = false ∧ e.phase = .deletingDuring) :=
                fun h => hstop ⟨h.1, rfl, .inr h.2⟩
              exact hstay _ (if_neg hphase) rfl rfl rfl rfl rfl
          | deleteRemote _ _ _ _ _ | deleteLocal _ _ _ =>
              have hphase : ¬ ignoreErrors = false := fun h => hstop ⟨h, rfl, .inl rfl⟩
              exact hstay _ (if_neg hphase) rfl rfl rfl rfl rfl
    simp only [hsame, hstop, not_false_eq_true, true_and]

end

/-! ## Runs -/

/-- A run that shows its end is at its end: nothing is in flight, and nothing is handed
out whatever happens next. -/
def SyncRun.Honest (run : SyncRun) : Prop :=
  ∀ e, run.sync.execution = some e → (e.running = false ∨ e.summary.isSome) →
    e.activeTransfers = 0 ∧ e.activeDeleteBatches = 0 ∧ run.inFlight = [] ∧
      ∀ later, (Foundation.run SyncRun.step run later).issued = run.issued

/-- The task answered is the last one in flight, or its worker or another free one gets
new work. -/
def SyncRun.Feeds (run : SyncRun) : SyncRunEvent → Prop
  | .deliver index answer =>
      match run.inFlight[index]?, run.sync.execution with
      | some task, some e =>
          run.inFlight.length = 1 ∨
            ¬ e.StoppedBy run.sync.deleteGuardrails.ignoreErrors task answer ∧
              e.HasWork run.sync task.freedTransfers task.freedDeletes
      | _, _ => True
  | .edit _ => True

theorem SyncRun.run_idle {run : SyncRun} (hidle : run.inFlight = []) (later : List SyncRunEvent) :
    (Foundation.run SyncRun.step run later).issued = run.issued := by
  induction later generalizing run with
  | nil => rfl
  | cons event later ih =>
      have hstep : (run.step event).inFlight = [] ∧ (run.step event).issued = run.issued := by
        cases event with
        | deliver index answer =>
            rw [SyncRun.deliver_none (by rw [hidle]; rfl)]
            exact ⟨hidle, rfl⟩
        | edit after => exact ⟨hidle, rfl⟩
      rw [run_cons, ih hstep.1, hstep.2]

/-- The end is shown by the flag and the summary alike. -/
def SyncRun.Reports (run : SyncRun) : Prop :=
  ∀ e, run.sync.execution = some e → (e.running = false ↔ e.summary.isSome)

section

variable {start : SyncState} {runPlan : SyncRunPlan} {run : SyncRun} {e : SyncExecutionState}

theorem SyncRun.honest_iff (hholds : run.Holds start runPlan) (hreports : run.Reports) :
    run.Honest ↔ ∀ e, run.sync.execution = some e → e.running = false → run.inFlight = [] := by
  obtain ⟨e, hcoherent, -⟩ := hholds
  constructor
  · intro h x hexec hended
    exact (h x hexec (.inl hended)).2.2.1
  · intro h x hexec hended
    have hended : x.running = false := hended.elim id (hreports x hexec).mpr
    have hidle := h x hexec hended
    have hsame : x = e := Option.some.inj (hexec.symm.trans hcoherent.execution_eq)
    have hactiveT := hcoherent.accounted.activeTransfers_eq
    have hactiveD := hcoherent.accounted.activeDeletes_eq
    rw [hidle, List.countP_nil] at hactiveT hactiveD
    rw [hsame]
    exact ⟨hactiveT, hactiveD, hidle, SyncRun.run_idle hidle⟩

theorem resultHandled_sameReport (e : SyncExecutionState) (ignoreErrors : Bool)
    (result : SyncRunResult) : SameReport e (e.resultHandled ignoreErrors result) := by
  rcases result with (_ | _) | (_ | _) <;> exact ⟨rfl, rfl⟩

/-- What a delivery hands out and reports, and when it hands out anything while other
tasks are in flight. -/
theorem SyncRun.deliver_report
    (h : Coherent start runPlan run.sync e run.issued run.inFlight) {i : Nat}
    {task : PendingSyncTask} (hi : run.inFlight[i]? = some task) (answer : Except String Unit) :
    ∃ specs next, (run.step (.deliver i answer)).sync.execution = some next ∧
      (run.step (.deliver i answer)).inFlight = run.inFlight.eraseIdx i ++ specs ∧
      (specs = [] → next.running = false ∧ next.summary.isSome) ∧
      (specs ≠ [] → SameReport e next) ∧
      (run.inFlight.eraseIdx i ≠ [] → (specs ≠ [] ↔
        ¬ e.StoppedBy run.sync.deleteGuardrails.ignoreErrors task answer ∧
          e.HasWork run.sync task.freedTransfers task.freedDeletes)) := by
  obtain ⟨telemetry, hhandle⟩ := handleRunResult_eq h.execution_eq (task.intoTask answer)
  have hanswered := h.answered hi answer telemetry
  obtain ⟨next, hexec, hended, hkept⟩ := dispatchSyncExecution_report hanswered.execution_eq
  have hresult := resultHandled_sameReport e run.sync.deleteGuardrails.ignoreErrors
    (task.intoTask answer)
  refine ⟨(handleRunResult run.sync (task.intoTask answer)).2, next, ?_, ?_, ?_, ?_, ?_⟩
  · simp only [SyncRun.step, hi, hhandle]
    exact hexec
  · simp only [SyncRun.step, hi]
  · rw [hhandle]
    exact hended
  · rw [hhandle]
    exact fun hsome => hresult.trans (hkept hsome)
  · intro hothers
    rw [hhandle, dispatchSyncExecution_ne_nil_iff hanswered.execution_eq
      (hanswered.phaseStep_none hothers)]
    exact SyncExecutionState.hasWork_resultHandled _ e _ task answer

theorem SyncRun.Reports.step (hreports : run.Reports) (hholds : run.Holds start runPlan)
    {event : SyncRunEvent} (hown : run.Own event) : (run.step event).Reports := by
  obtain ⟨e, hcoherent, -⟩ := hholds
  cases event with
  | deliver i answer =>
      cases hi : run.inFlight[i]? with
      | none => rwa [SyncRun.deliver_none hi]
      | some task =>
          obtain ⟨specs, next, hexec, -, hended, hkept, -⟩ :=
            SyncRun.deliver_report hcoherent hi answer
          intro x hx
          rw [hexec, Option.some.injEq] at hx
          subst hx
          by_cases hnil : specs = []
          · have hboth := hended hnil
            exact iff_of_true hboth.1 hboth.2
          · obtain ⟨hrunning, hsummary⟩ := hkept hnil
            rw [hrunning, hsummary]
            exact hreports e hcoherent.execution_eq
  | edit after =>
      intro x hx
      exact hreports x (hown.execution_eq ▸ hx)

/-- A single event keeps the run honest exactly if it feeds the workers. -/
theorem SyncRun.honest_step_iff (hholds : run.Holds start runPlan) (hreports : run.Reports)
    (hhonest : run.Honest) {event : SyncRunEvent} (hown : run.Own event) :
    (run.step event).Honest ↔ run.Feeds event := by
  rw [SyncRun.honest_iff (hholds.step hown) (hreports.step hholds hown)]
  rw [SyncRun.honest_iff hholds hreports] at hhonest
  obtain ⟨e, hcoherent, -⟩ := hholds
  cases event with
  | edit after =>
      refine iff_of_true ?_ trivial
      intro x hx hended
      exact hhonest x (hown.execution_eq ▸ hx) hended
  | deliver i answer =>
      cases hi : run.inFlight[i]? with
      | none =>
          rw [SyncRun.deliver_none hi]
          refine iff_of_true hhonest ?_
          simp only [SyncRun.Feeds, hi]
      | some task =>
          obtain ⟨specs, next, hexec, hflight, hended, hkept, hwork⟩ :=
            SyncRun.deliver_report hcoherent hi answer
          obtain ⟨hlt, -⟩ := List.getElem?_eq_some_iff.mp hi
          have hlen : (run.inFlight.eraseIdx i).length = run.inFlight.length - 1 :=
            List.length_eraseIdx_of_lt hlt
          -- the run is not over, since this task is in flight
          have hrunning : e.running = true := by
            by_contra hover
            have hidle := hhonest e hcoherent.execution_eq (by simpa using hover)
            rw [hidle] at hlt
            exact absurd hlt (Nat.not_lt_zero i)
          simp only [SyncRun.Feeds, hi, hcoherent.execution_eq, hexec, hflight,
            Option.some.injEq, forall_eq']
          by_cases hothers : run.inFlight.eraseIdx i = []
          · have hlast : run.inFlight.length = 1 := by
              rw [hothers, List.length_nil] at hlen
              omega
            refine iff_of_true ?_ (.inl hlast)
            intro hover
            by_cases hnil : specs = []
            · rw [hothers, hnil]
              rfl
            · have hsame := (hkept hnil).1
              rw [hrunning, hover] at hsame
              cases hsame
          · have hmore : run.inFlight.length ≠ 1 := by
              intro hone
              exact hothers (List.length_eq_zero_iff.mp (by omega))
            rw [or_iff_right hmore, ← hwork hothers]
            constructor
            · intro h hnil
              exact hothers (List.append_eq_nil_iff.mp (h (hended hnil).1)).1
            · intro hsome hover
              have hsame := (hkept hsome).1
              rw [hrunning, hover] at hsame
              cases hsame

theorem SyncRun.start_reports_honest (hplan : start.runPlan = some runPlan)
    (hmode : start.mode ≠ .diff) :
    (SyncRun.start start).Reports ∧ (SyncRun.start start).Honest := by
  obtain ⟨e, hcoherent⟩ := coherent_start hplan hmode
  obtain ⟨next, hexec, hended, hkept⟩ := dispatchSyncExecution_report hcoherent.execution_eq
  have hfresh : e.running = true ∧ e.summary = none := by
    rw [startExecution_fresh hplan hmode hcoherent.execution_eq]
    exact ⟨rfl, rfl⟩
  have hreports : (SyncRun.start start).Reports := by
    intro x hx
    have hsame : next = x := Option.some.inj (hexec.symm.trans hx)
    subst hsame
    by_cases hnil : (dispatchSyncExecution (startExecution start)).2 = []
    · have hboth := hended hnil
      exact iff_of_true hboth.1 hboth.2
    · obtain ⟨hrunning, hsummary⟩ := hkept hnil
      rw [hrunning, hsummary, hfresh.1, hfresh.2]
      decide
  refine ⟨hreports, (SyncRun.honest_iff (SyncRun.start_holds hplan hmode) hreports).mpr ?_⟩
  intro x hx hover
  have hsame : next = x := Option.some.inj (hexec.symm.trans hx)
  subst hsame
  by_contra hsome
  have hrunning := (hkept hsome).1
  rw [hfresh.1, hover] at hrunning
  cases hrunning

end

/-- A run is honest about its end in every state exactly if every result that arrives
while other tasks are in flight finds work for a free worker. -/
theorem run_honest_iff_fed {start : SyncState} {runPlan : SyncRunPlan}
    (hplan : start.runPlan = some runPlan) (hmode : start.mode ≠ .diff)
    {events : List SyncRunEvent}
    (hown : Along SyncRun.step SyncRun.Own (SyncRun.start start) events) :
    (∀ earlier, earlier <+: events →
        (run SyncRun.step (SyncRun.start start) earlier).Honest) ↔
      Along SyncRun.step SyncRun.Feeds (SyncRun.start start) events := by
  obtain ⟨hreports, hhonest⟩ := SyncRun.start_reports_honest hplan hmode
  refine forall_prefix_iff_along
    (fun run => SyncRun.Holds start runPlan run ∧ run.Reports) SyncRun.Honest ?_ ?_
    ⟨SyncRun.start_holds hplan hmode, hreports⟩ hhonest hown
  · intro run event hbase hown
    exact ⟨hbase.1.step hown, hbase.2.step hbase.1 hown⟩
  · intro run event hbase hown hhonest
    exact SyncRun.honest_step_iff hbase.1 hbase.2 hhonest hown

/-- Two transfers, then one delete. -/
def twoTransfersPlan : SyncRunPlan :=
  { twoDeletesPlan with
    transfers := twoDeletesPlan.transfers ++ twoDeletesPlan.transfers
    deletes := twoDeletesPlan.deletes.take 1
    totalTransferBytes := 14
    totalDeleteBytes := 2 }

def copyThenDelete : SyncState :=
  { SyncState.betweenBuckets ['p'] ['q'] with
    policy := { SyncPreset.converge.policy with deletePhase := .after }
    runPlan := some twoTransfersPlan }

theorem run_honest_iff_fed_two_transfers :
    (∀ earlier, earlier <+: [SyncRunEvent.deliver 0 (.ok ())] →
        (run SyncRun.step (SyncRun.start copyThenDelete) earlier).Honest) ↔
      Along SyncRun.step SyncRun.Feeds (SyncRun.start copyThenDelete) [.deliver 0 (.ok ())] := by
  have hplan : copyThenDelete.runPlan = some twoTransfersPlan := rfl
  have hown : Along SyncRun.step SyncRun.Own (SyncRun.start copyThenDelete)
      [.deliver 0 (.ok ())] := ⟨trivial, trivial⟩
  exact run_honest_iff_fed hplan (by decide) hown

/-- The first of two transfers ends: the run shows its summary with the other one in
flight. -/
theorem run_ends_early :
    ¬ ∀ (start : SyncState) (runPlan : SyncRunPlan), start.runPlan = some runPlan →
      start.mode ≠ .diff → ∀ events,
        Along SyncRun.step SyncRun.Own (SyncRun.start start) events →
          (run SyncRun.step (SyncRun.start start) events).Honest := by
  intro h
  have hown : Along SyncRun.step SyncRun.Own (SyncRun.start copyThenDelete)
      [.deliver 0 (.ok ())] := ⟨trivial, trivial⟩
  have hhonest := h copyThenDelete twoTransfersPlan rfl (by decide) _ hown
  have hshown : (run SyncRun.step (SyncRun.start copyThenDelete)
      [.deliver 0 (.ok ())]).sync.execution.map
        (fun e => (e.running, e.activeTransfers)) = some (false, 1) := by decide
  obtain ⟨e, hexec, hfields⟩ := Option.map_eq_some_iff.mp hshown
  obtain ⟨hover, hactive⟩ := Prod.mk.inj hfields
  have hidle := (hhonest e hexec (.inl hover)).1
  rw [hactive] at hidle
  cases hidle

end AbixioUi
