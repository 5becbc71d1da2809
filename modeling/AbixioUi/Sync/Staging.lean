import AbixioUi.Sync.RunOrder

/-! # Stages of a run

Where errors are not ignored, a stage of a run is not entered before the stage ahead of it
has succeeded: a run that deletes last deletes nothing after a failed transfer, and one that
deletes first transfers nothing after a failed delete.
-/

namespace AbixioUi

open Foundation

/-- What the counters and flags of a run say about the stages behind it. -/
structure Staged (start : SyncState) (e : SyncExecutionState) : Prop where
  failed_iff : e.transferFailed = true ↔ 0 < e.failedTransfers
  skipped : e.deletePhaseSkipped = true → e.transferFailed = true
  after : start.policy.deletePhase = .after → start.deleteGuardrails.ignoreErrors = false →
    0 < e.nextDeleteIndex ∨ e.phase = .deletingAfter ∨ e.phase = .stopped →
      e.failedTransfers = 0
  before : start.policy.deletePhase = .before → start.deleteGuardrails.ignoreErrors = false →
    e.phase ≠ .stopped → e.failedDeletes = 0
  stopped : e.phase = .stopped → 0 < e.failedTransfers ∨ 0 < e.failedDeletes

section

variable {start sync : SyncState} {runPlan : SyncRunPlan} {e : SyncExecutionState}
  {issued inFlight : List PendingSyncTask}

theorem Staged.phaseStep {e' : SyncExecutionState} (h : Staged start e)
    (hignore : sync.deleteGuardrails = start.deleteGuardrails)
    (hstep : phaseStep sync e = some e') : Staged start e' := by
  rcases phaseStep_cases hstep with ⟨hphase, -, -, rfl⟩ | ⟨hphase, -, -, hnext⟩ |
    ⟨hphase, -, -, rfl⟩
  · have hopen : e.phase ≠ .stopped := by simp [hphase]
    refine ⟨h.failed_iff, h.skipped, fun ha hi hcond => h.after ha hi (.inl ?_),
      fun hb hi _ => h.before hb hi hopen, nofun⟩
    simpa using hcond
  · have hopen : e.phase ≠ .stopped := by simp [hphase]
    rcases hnext with ⟨-, rfl⟩ | ⟨-, hfailed, -, rfl⟩ | ⟨-, hclear, rfl⟩
    · refine ⟨h.failed_iff, h.skipped, fun ha hi hcond => h.after ha hi (.inl ?_),
        fun hb hi _ => h.before hb hi hopen, nofun⟩
      simpa using hcond
    · refine ⟨h.failed_iff, fun _ => hfailed, fun ha hi hcond => h.after ha hi (.inl ?_),
        fun hb hi _ => h.before hb hi hopen, nofun⟩
      simpa using hcond
    · refine ⟨h.failed_iff, h.skipped, fun _ hi _ => ?_,
        fun hb hi _ => h.before hb hi hopen, ?_⟩
      · -- the deletes come next only if no transfer has failed
        rw [hignore] at hclear
        have hnone : ¬ e.transferFailed = true := fun hfailed => hclear ⟨hfailed, hi⟩
        rw [h.failed_iff] at hnone
        exact Nat.eq_zero_of_not_pos hnone
      · intro hstopped
        cases hd : sync.policy.deletePhase <;> simp [phaseAfterTransfers, hd] at hstopped
  · have hopen : e.phase ≠ .stopped := by
      rcases hphase with ⟨hphase, -⟩ | hphase <;> simp [hphase]
    refine ⟨h.failed_iff, h.skipped, fun ha hi hcond => h.after ha hi (.inl ?_),
      fun hb hi _ => h.before hb hi hopen, nofun⟩
    simpa using hcond

theorem Staged.loop (h : Staged start e) (sync : SyncState)
    (hignore : sync.deleteGuardrails = start.deleteGuardrails) (fuel : Nat) :
    Staged start (phaseLoop sync fuel e) :=
  phaseLoop_invariant (Staged start) (fun _ _ hx hstep => hx.phaseStep hignore hstep) fuel h

/-- A dispatch hands out deletes in the stages that delete only. -/
theorem Staged.dispatched {after : SyncState} {specs : List PendingSyncTask}
    {next : SyncExecutionState} (h : Staged start e)
    (hphased : Phased start.mode start.policy.deletePhase e)
    (hd : Dispatched sync e after specs next) : Staged start next := by
  obtain ⟨n, m, hpulled, hcopying, -⟩ := hd.pulled
  have hfinal := hd.final
  have htargets := congrArg List.length hpulled.handsOut.deletes_eq
  have hbound := hpulled.deletes_le
  obtain ⟨_, _, _, _, rfl⟩ := hpulled.next_eq
  refine ⟨h.failed_iff, h.skipped, ?_, h.before, h.stopped⟩
  intro ha hi hcond
  refine h.after ha hi ?_
  by_cases hnone : m = 0
  · subst hnone
    exact hcond
  · refine .inr ?_
    cases hphase : e.phase with
    | deletingBefore =>
        simp only [Phased, hphase, ha] at hphased
        exact absurd hphased.2.1 (by decide)
    | copying => exact absurd (hcopying hphase).1 hnone
    | deletingDuring =>
        simp only [Phased, hphase, ha] at hphased
        exact absurd hphased.2 (by decide)
    | deletingAfter => exact .inl rfl
    | done =>
        have hnil := hfinal (.inl hphase)
        rw [hnil] at htargets
        simp only [List.flatMap_nil, List.length_nil, List.length_map, List.length_take,
          List.length_drop] at htargets
        omega
    | stopped => exact .inr rfl

/-- In a run that deletes last, a transfer in flight means that nothing was deleted. -/
theorem Coherent.copying_of_transfer (h : Coherent start runPlan sync e issued inFlight)
    (hafter : start.policy.deletePhase = .after) (hactive : 0 < e.activeTransfers) :
    e.phase = .copying ∧ e.nextDeleteIndex = 0 := by
  have hphased := h.phased
  rw [hafter] at hphased
  unfold Phased at hphased
  cases hphase : e.phase with
  | copying =>
      simp only [hphase] at hphased
      exact ⟨rfl, by simpa using hphased.2.2⟩
  | deletingBefore => simp [hphase] at hphased
  | deletingDuring => simp [hphase] at hphased
  | deletingAfter =>
      simp only [hphase] at hphased
      omega
  | done =>
      simp only [hphase] at hphased
      omega
  | stopped =>
      simp only [hphase, true_implies] at hphased
      omega

theorem Coherent.deleting_of_delete (h : Coherent start runPlan sync e issued inFlight)
    (hafter : start.policy.deletePhase = .after) (hactive : 0 < e.activeDeleteBatches) :
    e.phase = .deletingAfter ∨ e.phase = .stopped := by
  have hphased := h.phased
  rw [hafter] at hphased
  unfold Phased at hphased
  cases hphase : e.phase with
  | copying =>
      simp only [hphase] at hphased
      omega
  | deletingBefore => simp [hphase] at hphased
  | deletingDuring => simp [hphase] at hphased
  | deletingAfter => exact .inl rfl
  | done =>
      simp only [hphase] at hphased
      omega
  | stopped => exact .inr rfl

theorem Staged.transferAnswered (h : Staged start e)
    (hcoherent : Coherent start runPlan sync e issued inFlight) (hactive : 0 < e.activeTransfers)
    (result : Except String SyncRunItem) :
    Staged start (e.transferFinished start.deleteGuardrails.ignoreErrors result) := by
  cases result with
  | ok item => exact ⟨h.failed_iff, h.skipped, h.after, h.before, h.stopped⟩
  | error message =>
      refine ⟨⟨fun _ => Nat.succ_pos _, fun _ => rfl⟩, fun _ => rfl, ?_, ?_,
        fun _ => .inl (Nat.succ_pos _)⟩
      · intro ha hi hcond
        have hcopying := hcoherent.copying_of_transfer ha hactive
        simp [SyncExecutionState.transferFinished, hcopying.1, hcopying.2] at hcond
      · intro hb hi hopen
        refine h.before hb hi fun hstopped => hopen ?_
        simp [SyncExecutionState.transferFinished, hstopped]

theorem Staged.deleteAnswered (h : Staged start e)
    (hcoherent : Coherent start runPlan sync e issued inFlight)
    (hactive : 0 < e.activeDeleteBatches) {result : Except String SyncDeleteBatchResult}
    (hwhole : ∀ batch, result = .ok batch → batch.failed = 0) :
    Staged start (e.deleteFinished start.deleteGuardrails.ignoreErrors result) := by
  cases result with
  | ok batch =>
      have hnone := hwhole batch rfl
      refine ⟨h.failed_iff, h.skipped, h.after, fun hb hi hopen => ?_, fun hstopped => ?_⟩
      · show e.failedDeletes + batch.failed = 0
        rw [hnone, h.before hb hi hopen]
      · show 0 < e.failedTransfers ∨ 0 < e.failedDeletes + batch.failed
        rw [hnone]
        exact h.stopped hstopped
  | error message =>
      refine ⟨h.failed_iff, h.skipped, fun ha hi _ => ?_, fun _ hi hopen => ?_,
        fun _ => .inr (Nat.succ_pos _)⟩
      · exact h.after ha hi (.inr (hcoherent.deleting_of_delete ha hactive))
      · exact absurd (if_pos hi) hopen

theorem Staged.answered (h : Staged start e)
    (hcoherent : Coherent start runPlan sync e issued inFlight) {i : Nat}
    {task : PendingSyncTask} (hi : inFlight[i]? = some task) (answer : Except String Unit) :
    Staged start (e.resultHandled start.deleteGuardrails.ignoreErrors (task.intoTask answer)) := by
  cases task with
  | transfer item =>
      exact h.transferAnswered hcoherent (hcoherent.accounted.activeTransfers_pos hi rfl) _
  | deleteRemote connectionId bucket keys bytes label =>
      refine h.deleteAnswered hcoherent (hcoherent.accounted.activeDeletes_pos hi rfl) ?_
      intro batch hbatch
      cases answer with
      | ok done =>
          rw [← Except.ok.inj hbatch]
      | error message => cases hbatch
  | deleteLocal path bytes label =>
      refine h.deleteAnswered hcoherent (hcoherent.accounted.activeDeletes_pos hi rfl) ?_
      intro batch hbatch
      cases answer with
      | ok done =>
          rw [← Except.ok.inj hbatch]
      | error message => cases hbatch

end

/-! ## Whole runs -/

/-- The run is coherent, over or busy, and staged. -/
def SyncRun.StagedHolds (start : SyncState) (runPlan : SyncRunPlan) (run : SyncRun) : Prop :=
  ∃ e, Coherent start runPlan run.sync e run.issued run.inFlight ∧
    (e.phase = .done ∨ e.phase = .stopped ∨ run.inFlight ≠ []) ∧ Staged start e

section

variable {start : SyncState} {runPlan : SyncRunPlan} {run : SyncRun}

theorem SyncRun.StagedHolds.step (h : run.StagedHolds start runPlan) {event : SyncRunEvent}
    (hown : run.Own event) : (run.step event).StagedHolds start runPlan := by
  obtain ⟨e, hcoherent, hbusy, hstaged⟩ := h
  cases event with
  | deliver i answer =>
      cases hi : run.inFlight[i]? with
      | none =>
          rw [SyncRun.deliver_none hi]
          exact ⟨e, hcoherent, hbusy, hstaged⟩
      | some task =>
          obtain ⟨telemetry, hhandle⟩ := handleRunResult_eq hcoherent.execution_eq
            (task.intoTask answer)
          have hanswered := hcoherent.answered hi answer telemetry
          obtain ⟨next, hd, hnext, hbusy⟩ := hanswered.dispatch
          have hguard := hcoherent.guardrails_eq
          have hstaged' := (hstaged.answered hcoherent hi answer).loop
            { run.sync with
              execution := some (e.resultHandled run.sync.deleteGuardrails.ignoreErrors
                (task.intoTask answer))
              telemetry := telemetry } hguard PHASE_TURNS
          rw [← hguard] at hstaged'
          have hloop := hanswered.loop PHASE_TURNS
          have hstep : run.step (.deliver i answer) =
              { sync := (handleRunResult run.sync (task.intoTask answer)).1
                issued := run.issued ++ (handleRunResult run.sync (task.intoTask answer)).2
                inFlight := run.inFlight.eraseIdx i ++
                  (handleRunResult run.sync (task.intoTask answer)).2 } := by
            simp only [SyncRun.step, hi]
          rw [hstep, hhandle]
          exact ⟨next, hnext, hbusy, hstaged'.dispatched hloop.phased hd⟩
  | edit after => exact ⟨e, hcoherent.edited hown, hbusy, hstaged⟩

theorem SyncRun.start_stagedHolds (hplan : start.runPlan = some runPlan)
    (hmode : start.mode ≠ .diff) : (SyncRun.start start).StagedHolds start runPlan := by
  obtain ⟨e, hcoherent⟩ := coherent_start hplan hmode
  have hfresh := startExecution_fresh hplan hmode hcoherent.execution_eq
  have hphase : e.phase ≠ .stopped := by
    have hexec := hcoherent.execution_eq
    unfold startExecution startCopyExecution startSyncExecution at hexec
    simp only [hplan] at hexec
    split at hexec
    next =>
      rw [← Option.some.inj hexec]
      exact nofun
    next =>
      rw [← Option.some.inj hexec]
      show startPhase _ _ ≠ .stopped
      unfold startPhase
      split <;> (try split) <;> exact nofun
    next hdiff => exact absurd hdiff hmode
  have hstaged : Staged start e := by
    refine ⟨?_, ?_, fun _ _ _ => ?_, fun _ _ _ => ?_, fun hstopped => absurd hstopped hphase⟩
    · rw [hfresh]
      simp [SyncExecutionState.start]
    · rw [hfresh]
      exact nofun
    · rw [hfresh]
      rfl
    · rw [hfresh]
      rfl
  obtain ⟨next, hd, hnext, hbusy⟩ := hcoherent.dispatch
  have hloop := hstaged.loop (startExecution start) hcoherent.guardrails_eq PHASE_TURNS
  exact ⟨next, hnext, hbusy, hloop.dispatched (hcoherent.loop PHASE_TURNS).phased hd⟩

theorem SyncRun.run_stagedHolds (hplan : start.runPlan = some runPlan)
    (hmode : start.mode ≠ .diff) {events : List SyncRunEvent}
    (hown : Along SyncRun.step SyncRun.Own (SyncRun.start start) events) :
    (Foundation.run SyncRun.step (SyncRun.start start) events).StagedHolds start runPlan :=
  run_invariant (SyncRun.StagedHolds start runPlan) (fun _ _ h hown => h.step hown)
    (SyncRun.start_stagedHolds hplan hmode) hown

end

/-! ## Every run ends -/

def SyncRunEvent.isDeliver : SyncRunEvent → Bool
  | .deliver _ _ => true
  | .edit _ => false

/-- Results are those of tasks in flight, and edits keep the run. -/
def SyncRun.Answers (run : SyncRun) : SyncRunEvent → Prop
  | .deliver index _ => index < run.inFlight.length
  | .edit after => KeepsRun run.sync after

def SyncRunEvent.Succeeds : SyncRunEvent → Prop
  | .deliver _ answer => answer.isOk = true
  | .edit _ => True

theorem SyncRun.Answers.own {run : SyncRun} {event : SyncRunEvent} (h : run.Answers event) :
    run.Own event := by
  cases event with
  | deliver i answer => trivial
  | edit after => exact h

/-- Every task takes an item at least. -/
theorem HandsOut.length_le {specs : List PendingSyncTask} {transfers deletes : List SyncRunItem}
    (h : HandsOut specs transfers deletes) : specs.length ≤ transfers.length + deletes.length := by
  have hcount : ∀ tasks : List PendingSyncTask,
      (∀ task ∈ tasks, task.isDelete → task.deleteTargets ≠ []) →
      tasks.length ≤ (tasks.flatMap (·.transferItems)).length +
        (tasks.flatMap (·.deleteTargets)).length := by
    intro tasks htasks
    induction tasks with
    | nil => exact Nat.zero_le _
    | cons task tasks ih =>
        have hrest := ih fun other hother => htasks other (List.mem_cons_of_mem _ hother)
        have hone : 1 ≤ task.transferItems.length + task.deleteTargets.length := by
          cases hkind : task.isTransfer with
          | true =>
              rw [task.length_transferItems, if_pos hkind]
              exact Nat.le_add_right _ _
          | false =>
              have hne := htasks task List.mem_cons_self (by simp [PendingSyncTask.isDelete, hkind])
              have hpos := List.length_pos_iff.mpr hne
              omega
        simp only [List.flatMap_cons, List.length_append, List.length_cons]
        omega
  have hle := hcount specs h.targets_ne
  rw [h.transfers_eq, h.deletes_eq, List.length_map] at hle
  exact hle

/-- Each result is that of one task handed out. -/
theorem SyncRun.count_answers (run : SyncRun) {events : List SyncRunEvent}
    (h : Along SyncRun.step SyncRun.Answers run events) :
    events.countP (·.isDeliver) + (Foundation.run SyncRun.step run events).inFlight.length +
        run.issued.length =
      (Foundation.run SyncRun.step run events).issued.length + run.inFlight.length := by
  induction events generalizing run with
  | nil =>
      simp only [List.countP_nil, run_nil]
      omega
  | cons event events ih =>
      have hrest := ih (run.step event) h.2
      rw [List.countP_cons, run_cons]
      cases event with
      | edit after =>
          show List.countP _ events + 0 + _ + run.issued.length = _
          exact hrest
      | deliver i answer =>
          have hlt : i < run.inFlight.length := h.1
          have hi := List.getElem?_eq_getElem hlt
          have hissued : (run.step (.deliver i answer)).issued.length = run.issued.length +
              (handleRunResult run.sync (run.inFlight[i].intoTask answer)).2.length := by
            simp only [SyncRun.step, hi, List.length_append]
          have hflight : (run.step (.deliver i answer)).inFlight.length + 1 =
              run.inFlight.length +
                (handleRunResult run.sync (run.inFlight[i].intoTask answer)).2.length := by
            simp only [SyncRun.step, hi, List.length_append, List.length_eraseIdx, hlt, if_true]
            omega
          show List.countP _ events + 1 + _ + run.issued.length = _
          omega

section

variable {start : SyncState} {runPlan : SyncRunPlan} {run : SyncRun}

/-- A run that met no failure has counted none. -/
theorem SyncRun.Holds.unfailed_step (h : run.Holds start runPlan)
    (hnone : ∀ e, run.sync.execution = some e → e.failedTransfers = 0 ∧ e.failedDeletes = 0)
    {event : SyncRunEvent} (hown : run.Own event) (hsucceeds : event.Succeeds) :
    ∀ e, (run.step event).sync.execution = some e →
      e.failedTransfers = 0 ∧ e.failedDeletes = 0 := by
  obtain ⟨e, hcoherent, -⟩ := h
  have hzero := hnone e hcoherent.execution_eq
  cases event with
  | edit after =>
      have hkeeps : KeepsRun run.sync after := hown
      exact fun e' he' => hnone e' (hkeeps.execution_eq.symm.trans he')
  | deliver i answer =>
      cases hi : run.inFlight[i]? with
      | none =>
          rw [SyncRun.deliver_none hi]
          exact hnone
      | some task =>
          obtain ⟨before, specs, next, -, -, -, -, hd, -, hnext, -⟩ :=
            SyncRun.deliver_spec hcoherent hi answer
          have hcounters := hd.sameCounters
          have hok : (e.resultHandled start.deleteGuardrails.ignoreErrors
                (task.intoTask answer)).failedTransfers = 0 ∧
              (e.resultHandled start.deleteGuardrails.ignoreErrors
                (task.intoTask answer)).failedDeletes = 0 := by
            cases answer with
            | error message => cases hsucceeds
            | ok done => cases task <;> exact hzero
          intro e' he'
          rw [hnext.execution_eq, Option.some.injEq] at he'
          rw [← he', hcounters.failedTransfers_eq, hcounters.failedDeletes_eq]
          exact hok

theorem SyncRun.run_unfailed (hplan : start.runPlan = some runPlan) (hmode : start.mode ≠ .diff)
    {events : List SyncRunEvent}
    (hown : Along SyncRun.step SyncRun.Own (SyncRun.start start) events)
    (hsucceeds : ∀ event ∈ events, event.Succeeds) :
    ∀ e, (Foundation.run SyncRun.step (SyncRun.start start) events).sync.execution = some e →
      e.failedTransfers = 0 ∧ e.failedDeletes = 0 := by
  have hstart : ∀ e, (SyncRun.start start).sync.execution = some e →
      e.failedTransfers = 0 ∧ e.failedDeletes = 0 := by
    obtain ⟨e, hcoherent⟩ := coherent_start hplan hmode
    have hfresh := startExecution_fresh hplan hmode hcoherent.execution_eq
    obtain ⟨next, hd, hnext, -⟩ := hcoherent.dispatch
    have hcounters := hd.sameCounters
    intro e' he'
    have hsame : next = e' := Option.some.inj (hnext.execution_eq.symm.trans he')
    rw [← hsame, hcounters.failedTransfers_eq, hcounters.failedDeletes_eq, hfresh]
    exact ⟨rfl, rfl⟩
  have hboth := run_invariant
    (fun run => SyncRun.Holds start runPlan run ∧
      ∀ e, run.sync.execution = some e → e.failedTransfers = 0 ∧ e.failedDeletes = 0)
    (fun run event h hstep => ⟨h.1.step hstep.1, h.1.unfailed_step h.2 hstep.1 hstep.2⟩)
    ⟨SyncRun.start_holds hplan hmode, hstart⟩
    (hown.and ((along_iff_forall SyncRunEvent.Succeeds _ _).mpr hsucceeds))
  exact hboth.2

end

/-- A run ends. It takes no more results than the plan has items; with none left to arrive
it is over; and if every result was a success it is done, with every transfer completed and,
in a sync, every delete handed out. -/
theorem run_ends {start : SyncState} {runPlan : SyncRunPlan}
    (hplan : start.runPlan = some runPlan) (hmode : start.mode ≠ .diff)
    {events : List SyncRunEvent}
    (hanswers : Along SyncRun.step SyncRun.Answers (SyncRun.start start) events) :
    let final := run SyncRun.step (SyncRun.start start) events
    events.countP (·.isDeliver) + final.inFlight.length ≤
        runPlan.transfers.length + runPlan.deletes.length ∧
      (final.inFlight = [] → ∃ e, final.sync.execution = some e ∧ e.phase.Final ∧
        ((∀ event ∈ events, event.Succeeds) →
          e.phase = .done ∧ e.completedTransfers = runPlan.transfers.length ∧
            (start.mode = .sync → e.nextDeleteIndex = runPlan.deletes.length))) := by
  intro final
  have hown : Along SyncRun.step SyncRun.Own (SyncRun.start start) events := by
    rw [along_iff_transitions] at hanswers ⊢
    exact fun t ht => (hanswers t ht).own
  obtain ⟨e, hcoherent, hbusy, hstaged⟩ := SyncRun.run_stagedHolds hplan hmode hown
  have haccounted := hcoherent.accounted
  constructor
  · have hcount := SyncRun.count_answers (SyncRun.start start) hanswers
    have hsame : (SyncRun.start start).issued.length = (SyncRun.start start).inFlight.length := rfl
    have hle := haccounted.handsOut.length_le
    rw [hcoherent.plan_eq, List.length_take, List.length_take] at hle
    have hfinal : (run SyncRun.step (SyncRun.start start) events).inFlight = final.inFlight := rfl
    rw [← hfinal]
    omega
  · intro hidle
    have hfinal : e.phase.Final := by
      rcases hbusy with hdone | hstopped | hbusy
      · exact .inl hdone
      · exact .inr hstopped
      · exact absurd hidle hbusy
    refine ⟨e, hcoherent.execution_eq, hfinal, fun hsucceeds => ?_⟩
    have hnone := SyncRun.run_unfailed hplan hmode hown hsucceeds e hcoherent.execution_eq
    have hdone : e.phase = .done := by
      refine hfinal.resolve_right fun hstopped => ?_
      have hpos := hstaged.stopped hstopped
      omega
    have hphased := hcoherent.phased
    simp only [Phased, hdone] at hphased
    obtain ⟨hactive, -, hissued, -, hdeletes, -⟩ := hphased
    refine ⟨hdone, ?_, fun hsync => ?_⟩
    · have hfinished := haccounted.finished_eq
      have hbound := haccounted.transfers_le
      unfold SyncExecutionState.transfersIssued at hissued
      rw [hcoherent.plan_eq] at hbound hissued
      omega
    · have hskip : e.deletePhaseSkipped = false := by
        by_contra htold
        have hfailed := hstaged.failed_iff.mp (hstaged.skipped (by simpa using htold))
        omega
      have hissued' := hdeletes hsync hskip
      have hbound := haccounted.deletes_le
      unfold SyncExecutionState.deletesIssued at hissued'
      rw [hcoherent.plan_eq] at hbound hissued'
      omega

theorem run_ends_two_tasks :
    (∃ e, (run SyncRun.step (SyncRun.start deletesThenCopy)
      [.deliver 0 (.ok ()), .deliver 0 (.ok ())]).sync.execution = some e ∧ e.phase.Final ∧
        e.completedTransfers = 1) := by
  have hplan : deletesThenCopy.runPlan = some twoDeletesPlan := rfl
  have hanswers : Along SyncRun.step SyncRun.Answers (SyncRun.start deletesThenCopy)
      [.deliver 0 (.ok ()), .deliver 0 (.ok ())] :=
    ⟨show 0 < _ by decide, show 0 < _ by decide, trivial⟩
  obtain ⟨-, hends⟩ := run_ends hplan (by decide) hanswers
  obtain ⟨e, hexec, hfinal, hdone⟩ := hends (by decide)
  have hall := hdone (by
    intro event hevent
    have hdeliver : event = .deliver 0 (.ok ()) := by simpa using hevent
    rw [hdeliver]
    rfl)
  exact ⟨e, hexec, hfinal, hall.2.1⟩

end AbixioUi
