import AbixioUi.Sync.RunFinish

/-! # Whether a run says truly that it skipped its deletes

The flag is raised where the copying ends after a failed transfer. Copying ends before
the deletes, or after them if they go first; the flag does not tell the two apart.
-/

namespace AbixioUi

open Foundation

/-! ## The sentence in the summary -/

def skipNotice : String := " Delete phase was skipped because earlier transfers failed."

/-- The summary ends with the notice. -/
def ShowsSkip (summary : String) : Prop := skipNotice.toList <:+ summary.toList

/-- What a summary ends with otherwise: a number and a full stop. -/
theorem not_showsSkip_number (before : String) (n : Nat) :
    ¬ ShowsSkip (before ++ toString n ++ ".") := by
  intro hshows
  have hdigits := List.dropLast_concat_getLast (Nat.toDigits_ne_nil (n := n) (b := 10))
  have htext : (before ++ toString n ++ ".").toList =
      before.toList ++ (Nat.toDigits 10 n).dropLast ++
        [(Nat.toDigits 10 n).getLast Nat.toDigits_ne_nil, '.'] := by
    rw [String.toList_append, String.toList_append, Nat.toString_eq_repr, Nat.toList_repr]
    conv_lhs => rw [← hdigits]
    simp
  have hdigit : ((Nat.toDigits 10 n).getLast Nat.toDigits_ne_nil).isDigit = true :=
    Nat.isDigit_of_mem_toDigits (by decide) (by decide) (List.getLast_mem _)
  have hlong : (['d', '.'] : List Char) <:+ skipNotice.toList := by decide
  -- a digit would have to be the letter before the full stop of the notice
  have hlast := hlong.trans hshows
  rw [htext] at hlast
  have hend := (List.suffix_of_suffix_length_le hlast (List.suffix_append _ _)
    (Nat.le_refl _)).eq_of_length rfl
  rw [← (List.cons.inj hend).1] at hdigit
  exact absurd hdigit (by decide)

theorem showsSkip_finalSyncSummary (e : SyncExecutionState) :
    ShowsSkip (finalSyncSummary e) ↔ e.deletePhaseSkipped = true := by
  unfold finalSyncSummary
  cases e.deletePhaseSkipped with
  | true =>
      refine iff_of_true ?_ rfl
      simp only [if_true, ShowsSkip, String.toList_append]
      exact List.suffix_append _ _
  | false =>
      refine iff_of_false ?_ Bool.false_ne_true
      simp only [Bool.false_eq_true, if_false, String.append_empty]
      exact not_showsSkip_number _ _

/-! ## Where the flag is raised -/

/-- The copying is over with a failure, and deletes are planned. -/
def SyncExecutionState.Skips (sync : SyncState) (e : SyncExecutionState) : Prop :=
  e.phase = .copying ∧ e.activeTransfers = 0 ∧ e.transfersIssued ∧ sync.mode ≠ .copy ∧
    e.runPlan.deletes ≠ [] ∧ e.transferFailed = true ∧ sync.deleteGuardrails.ignoreErrors = false

theorem SyncExecutionState.Skips.phaseStep {sync : SyncState} {e : SyncExecutionState}
    (h : e.Skips sync) :
    phaseStep sync e = some { e with deletePhaseSkipped := true, phase := .done } := by
  obtain ⟨hphase, hidle, hissued, hmode, hdeletes, hfailed, hignore⟩ := h
  have hstay : ¬ (e.activeTransfers > 0 ∨ ¬ e.transfersIssued) := by
    rw [hidle]
    exact not_or.mpr ⟨Nat.lt_irrefl 0, not_not.mpr hissued⟩
  simp only [AbixioUi.phaseStep, hphase]
  rw [if_neg hstay, if_neg hmode, if_neg hdeletes, if_pos ⟨hfailed, hignore⟩]

theorem SyncExecutionState.Skips.loop {sync : SyncState} {e : SyncExecutionState}
    (h : e.Skips sync) :
    phaseLoop sync PHASE_TURNS e = { e with deletePhaseSkipped := true, phase := .done } := by
  show phaseLoop sync (3 + 1) e = _
  have hdone : SyncExecutionPhase.Final
      { e with deletePhaseSkipped := true, phase := .done : SyncExecutionState }.phase := .inl rfl
  rw [phaseLoop, h.phaseStep]
  exact phaseLoop_of_final hdone 3

/-- A turn of the loop raises the flag only where the copying is skipped from. -/
theorem phaseStep_skipped {sync : SyncState} {e e' : SyncExecutionState}
    (h : phaseStep sync e = some e') :
    e'.transferFailed = e.transferFailed ∧ e'.phase ≠ .deletingBefore ∧
      (e'.phase = .copying → e.phase = .deletingBefore) ∧
      (e'.deletePhaseSkipped = e.deletePhaseSkipped ∨ e.Skips sync) := by
  by_cases hskips : e.Skips sync
  · have hnext := Option.some.inj (hskips.phaseStep.symm.trans h)
    rw [← hnext]
    exact ⟨rfl, nofun, nofun, .inr hskips⟩
  · rcases phaseStep_cases h with ⟨hphase, -, -, rfl⟩ | ⟨hphase, hidle, hissued, hnext⟩ |
      ⟨-, -, -, rfl⟩
    · exact ⟨rfl, nofun, fun _ => hphase, .inl rfl⟩
    · rcases hnext with ⟨-, rfl⟩ | ⟨hmode, hfailed, hignore, rfl⟩ | ⟨-, -, rfl⟩
      · exact ⟨rfl, nofun, nofun, .inl rfl⟩
      · have hnil : e.runPlan.deletes = [] := by
          by_contra hdeletes
          exact hskips ⟨hphase, hidle, hissued, hmode, hdeletes, hfailed, hignore⟩
        -- without deletes the run is done before the failures are looked at
        have hstay : ¬ (e.activeTransfers > 0 ∨ ¬ e.transfersIssued) := by
          rw [hidle]
          exact not_or.mpr ⟨Nat.lt_irrefl 0, not_not.mpr hissued⟩
        simp only [phaseStep, hphase] at h
        rw [if_neg hstay, if_neg hmode, if_pos hnil] at h
        exact ⟨rfl, nofun, nofun, .inl (congrArg (·.deletePhaseSkipped) (Option.some.inj h)).symm⟩
      · have hlater : phaseAfterTransfers sync.policy.deletePhase ≠ .deletingBefore ∧
            phaseAfterTransfers sync.policy.deletePhase ≠ .copying := by
          cases sync.policy.deletePhase <;> decide
        exact ⟨rfl, hlater.1, fun hcopying => absurd hcopying hlater.2, .inl rfl⟩
    · exact ⟨rfl, nofun, nofun, .inl rfl⟩

/-- The loop raises the flag exactly if it starts where the copying is skipped from:
before any transfer none has failed. -/
theorem phaseLoop_skipped {sync : SyncState} {e : SyncExecutionState}
    (hfresh : e.deletePhaseSkipped = false)
    (hbefore : e.phase = .deletingBefore → e.transferFailed = false) :
    (phaseLoop sync PHASE_TURNS e).deletePhaseSkipped = true ↔ e.Skips sync := by
  constructor
  · refine (phaseLoop_invariant
      (fun x => (x.deletePhaseSkipped = true → e.Skips sync) ∧
        x.transferFailed = e.transferFailed ∧
        (x.phase = .deletingBefore → e.transferFailed = false) ∧
        (x.phase = .copying → e.transferFailed = false ∨ x = e)) ?_ PHASE_TURNS ?_).1
    · rintro x y ⟨hflag, hfailed, hdeleting, hcopying⟩ hstep
      obtain ⟨hsame, hphase, hback, hskipped⟩ := phaseStep_skipped hstep
      refine ⟨fun hraised => ?_, hsame.trans hfailed, fun h => absurd h hphase,
        fun h => .inl (hdeleting (hback h))⟩
      rcases hskipped with hkept | hskips
      · rw [hkept] at hraised
        exact hflag hraised
      · rcases hcopying hskips.1 with hnone | hfirst
        · have htold : x.transferFailed = true := hskips.2.2.2.2.2.1
          rw [hfailed, hnone] at htold
          cases htold
        · rw [← hfirst]
          exact hskips
    · refine ⟨fun h => ?_, rfl, hbefore, fun _ => .inr rfl⟩
      rw [hfresh] at h
      cases h
  · intro h
    rw [h.loop]

/-! ## One dispatch -/

/-- A failed transfer has been counted; the flag is raised only at the end of a sync with
deletes; and the end shows the summary of the counters. -/
structure SkipBase (mode : SyncMode) (e : SyncExecutionState) : Prop where
  failed_pos : e.transferFailed = true → 0 < e.failedTransfers
  skipped : e.deletePhaseSkipped = true →
    e.phase = .done ∧ mode = .sync ∧ e.runPlan.deletes ≠ []
  summary_eq : e.phase = .done → e.summary = some (finalSyncSummary e)

/-- A dispatch that ends the run leaves it as the loop does, and shows the summary. -/
theorem dispatchSyncExecution_done {sync : SyncState} {e : SyncExecutionState}
    (h : sync.execution = some e) (hdone : (phaseLoop sync PHASE_TURNS e).phase = .done) :
    (dispatchSyncExecution sync).1.execution = some
      { phaseLoop sync PHASE_TURNS e with
        running := false
        currentStrategy := none
        currentItem := none
        summary := some (finalSyncSummary (phaseLoop sync PHASE_TURNS e)) } := by
  unfold dispatchSyncExecution
  simp only [h, hdone, true_or, if_true]
  rfl

theorem phaseLoop_transferFailed (sync : SyncState) (e : SyncExecutionState) :
    (phaseLoop sync PHASE_TURNS e).transferFailed = e.transferFailed :=
  phaseLoop_invariant (fun x => x.transferFailed = e.transferFailed)
    (fun _ _ hx hstep => (phaseStep_skipped hstep).1.trans hx) PHASE_TURNS rfl

section

variable {start sync : SyncState} {runPlan : SyncRunPlan} {e : SyncExecutionState}
  {issued inFlight : List PendingSyncTask}

theorem Coherent.transferFailed_before (h : Coherent start runPlan sync e issued inFlight)
    (hfailed : e.transferFailed = true → 0 < e.failedTransfers) :
    e.phase = .deletingBefore → e.transferFailed = false := by
  intro hphase
  have hphased := h.phased
  simp only [Phased, hphase] at hphased
  have hfinished := h.accounted.finished_eq
  by_contra htold
  have hpos := hfailed (by simpa using htold)
  omega

theorem Coherent.dispatch_skip (h : Coherent start runPlan sync e issued inFlight)
    (hfailed : e.transferFailed = true → 0 < e.failedTransfers)
    (hfresh : e.deletePhaseSkipped = false) :
    ∃ next, (dispatchSyncExecution sync).1.execution = some next ∧ SkipBase start.mode next ∧
      (next.deletePhaseSkipped = true ↔ e.Skips sync) ∧
      (e.Skips sync → next.nextDeleteIndex = e.nextDeleteIndex) := by
  obtain ⟨next, hd, -, -⟩ := h.dispatch
  obtain ⟨hphase, htold⟩ := hd.phase_eq
  have hcount := hd.sameCounters.failedTransfers_eq
  have hflag : next.deletePhaseSkipped = true ↔ e.Skips sync := by
    obtain ⟨n, m, hpulled, -, -⟩ := hd.pulled
    obtain ⟨_, _, _, _, hnext⟩ := hpulled.next_eq
    rw [← phaseLoop_skipped hfresh (h.transferFailed_before hfailed), hnext]
  have hend : (phaseLoop sync PHASE_TURNS e).phase = .done → next =
      { phaseLoop sync PHASE_TURNS e with
        running := false
        currentStrategy := none
        currentItem := none
        summary := some (finalSyncSummary (phaseLoop sync PHASE_TURNS e)) } := by
    intro hdone
    have hexec := dispatchSyncExecution_done h.execution_eq hdone
    exact Option.some.inj (hd.execution_eq.symm.trans hexec)
  refine ⟨next, hd.execution_eq, ⟨?_, ?_, ?_⟩, hflag, ?_⟩
  · rw [htold, phaseLoop_transferFailed, hcount]
    exact hfailed
  · intro hraised
    have hskips := hflag.mp hraised
    have hdone := hend (by rw [hskips.loop])
    obtain ⟨-, -, -, hcopy, hdeletes, -⟩ := id hskips
    rw [h.mode_eq] at hcopy
    have hsync : start.mode = .sync := by
      cases hm : start.mode with
      | diff => exact absurd hm h.mode_ne
      | copy => exact absurd hm hcopy
      | sync => rfl
    rw [hdone, hskips.loop]
    exact ⟨rfl, hsync, hdeletes⟩
  · intro hdone
    rw [hend (hphase.symm.trans hdone)]
    rfl
  · intro hskips
    rw [hend (by rw [hskips.loop]), hskips.loop]

end

/-! ## Runs -/

/-- The flag is raised only if no delete was handed out, a finished sync that handed out
none of its deletes raises it, and the summary at the end shows the notice exactly then. -/
def SyncRun.TruthfulSkip (run : SyncRun) : Prop :=
  ∀ e, run.sync.execution = some e →
    (e.deletePhaseSkipped = true → e.nextDeleteIndex = 0) ∧
    (e.phase = .done → run.sync.mode = .sync → e.runPlan.deletes ≠ [] → e.nextDeleteIndex = 0 →
      e.deletePhaseSkipped = true) ∧
    (e.phase = .done → ∃ summary, e.summary = some summary ∧
      (ShowsSkip summary ↔
        run.sync.mode = .sync ∧ e.runPlan.deletes ≠ [] ∧ e.nextDeleteIndex = 0))

/-- The copying ends with a failed transfer after the deletes have gone first. -/
def SyncRun.FailsAfterDeletes (run : SyncRun) : SyncRunEvent → Prop
  | .deliver index answer =>
      match run.inFlight[index]?, run.sync.execution with
      | some _, some e =>
          e.phase = .copying ∧ 0 < e.nextDeleteIndex ∧
            e.activeTransfers = 1 ∧ e.transfersIssued ∧
            (e.transferFailed = true ∨ answer.isOk = false) ∧
            run.sync.deleteGuardrails.ignoreErrors = false
      | _, _ => False
  | .edit _ => False

def SyncRun.SkipHolds (start : SyncState) (runPlan : SyncRunPlan) (run : SyncRun) : Prop :=
  ∃ e, Coherent start runPlan run.sync e run.issued run.inFlight ∧ SkipBase start.mode e

section

variable {start : SyncState} {runPlan : SyncRunPlan} {run : SyncRun} {e : SyncExecutionState}

/-- All that can be wrong is a flag raised after deletes. -/
theorem SyncRun.truthfulSkip_iff
    (h : Coherent start runPlan run.sync e run.issued run.inFlight)
    (hbase : SkipBase start.mode e) :
    run.TruthfulSkip ↔ (e.deletePhaseSkipped = true → e.nextDeleteIndex = 0) := by
  have hraised : e.phase = .done → start.mode = .sync → e.runPlan.deletes ≠ [] →
      e.nextDeleteIndex = 0 → e.deletePhaseSkipped = true := by
    intro hdone hsync hdeletes hnone
    have hphased := h.phased
    simp only [Phased, hdone] at hphased
    by_contra hkept
    have hissued : e.runPlan.deletes.length ≤ e.nextDeleteIndex :=
      hphased.2.2.2.2.1 hsync (by simpa using hkept)
    have hpos := List.length_pos_iff.mpr hdeletes
    omega
  constructor
  · intro htruthful
    exact (htruthful e h.execution_eq).1
  · intro hflag x hexec
    have hsame : x = e := Option.some.inj (hexec.symm.trans h.execution_eq)
    subst hsame
    rw [h.mode_eq]
    refine ⟨hflag, hraised, fun hdone => ⟨_, hbase.summary_eq hdone, ?_⟩⟩
    rw [showsSkip_finalSyncSummary]
    constructor
    · intro htold
      obtain ⟨-, hsync, hdeletes⟩ := hbase.skipped htold
      exact ⟨hsync, hdeletes, hflag htold⟩
    · rintro ⟨hsync, hdeletes, hnone⟩
      exact hraised hdone hsync hdeletes hnone

/-- A delivery raises the flag exactly if the copying is over with the answer. -/
theorem SyncRun.deliver_skip (h : Coherent start runPlan run.sync e run.issued run.inFlight)
    (hbase : SkipBase start.mode e) {i : Nat} {task : PendingSyncTask}
    (hi : run.inFlight[i]? = some task) (answer : Except String Unit) :
    ∃ next, (run.step (.deliver i answer)).sync.execution = some next ∧
      SkipBase start.mode next ∧
      (next.deletePhaseSkipped = true ↔
        (e.resultHandled run.sync.deleteGuardrails.ignoreErrors
          (task.intoTask answer)).Skips run.sync) ∧
      (next.deletePhaseSkipped = true → next.nextDeleteIndex = e.nextDeleteIndex) := by
  obtain ⟨telemetry, hhandle⟩ := handleRunResult_eq h.execution_eq (task.intoTask answer)
  have hanswered := h.answered hi answer telemetry
  have hfresh : e.deletePhaseSkipped = false := by
    by_contra htold
    exact h.phase_ne_done hi (hbase.skipped (by simpa using htold)).1
  have hresult : ∀ result, (e.resultHandled run.sync.deleteGuardrails.ignoreErrors
      result).deletePhaseSkipped = false ∧
      (e.resultHandled run.sync.deleteGuardrails.ignoreErrors
        result).nextDeleteIndex = e.nextDeleteIndex := by
    rintro ((_ | _) | (_ | _)) <;> exact ⟨hfresh, rfl⟩
  have hcounted : ∀ result, (e.resultHandled run.sync.deleteGuardrails.ignoreErrors
      result).transferFailed = true → 0 < (e.resultHandled
        run.sync.deleteGuardrails.ignoreErrors result).failedTransfers := by
    intro result
    cases result with
    | copyStepFinished result =>
        cases result with
        | ok item => exact hbase.failed_pos
        | error message => exact fun _ => Nat.succ_pos _
    | deleteBatchFinished result =>
        cases result with
        | ok batch => exact hbase.failed_pos
        | error message => exact hbase.failed_pos
  obtain ⟨next, hexec, hnext, hflag, hindex⟩ :=
    hanswered.dispatch_skip (hcounted _) (hresult _).1
  refine ⟨next, ?_, hnext, hflag, fun hraised => ?_⟩
  · simp only [SyncRun.step, hi, hhandle]
    exact hexec
  · rw [hindex (hflag.mp hraised), (hresult _).2]

theorem resultHandled_phase (e : SyncExecutionState) (ignoreErrors : Bool)
    (result : SyncRunResult) :
    (e.resultHandled ignoreErrors result).phase = e.phase ∨
      (e.resultHandled ignoreErrors result).phase = .stopped := by
  cases result with
  | copyStepFinished result =>
      cases result with
      | ok item => exact .inl rfl
      | error message => exact (ite_eq_or_eq _ _ _).symm
  | deleteBatchFinished result =>
      cases result with
      | ok batch => exact .inl rfl
      | error message => exact (ite_eq_or_eq _ _ _).symm

/-- While copying, the answer to a transfer ends it with a failure exactly if it is the last
one and a transfer has failed. -/
theorem skips_transferAnswered {sync : SyncState} (hphase : e.phase = .copying)
    (hmode : sync.mode ≠ .copy) (hdeletes : e.runPlan.deletes ≠ [])
    (hactive : 0 < e.activeTransfers) (item : SyncRunItem) (answer : Except String Unit) :
    (e.resultHandled sync.deleteGuardrails.ignoreErrors
        ((PendingSyncTask.transfer item).intoTask answer)).Skips sync ↔
      e.activeTransfers = 1 ∧ e.transfersIssued ∧
        (e.transferFailed = true ∨ answer.isOk = false) ∧
        sync.deleteGuardrails.ignoreErrors = false := by
  have hone : e.activeTransfers - 1 = 0 ↔ e.activeTransfers = 1 := by omega
  cases answer with
  | ok done =>
      show (e.phase = .copying ∧ e.activeTransfers - 1 = 0 ∧ e.transfersIssued ∧
        sync.mode ≠ .copy ∧ e.runPlan.deletes ≠ [] ∧ e.transferFailed = true ∧
        sync.deleteGuardrails.ignoreErrors = false) ↔ _
      rw [hone]
      simp [hphase, hmode, hdeletes, Except.isOk, Except.toBool]
  | error message =>
      have hkept : (if sync.deleteGuardrails.ignoreErrors = false ∧
          e.phase = .deletingDuring then SyncExecutionPhase.stopped else e.phase) = .copying := by
        rw [hphase]
        exact if_neg fun hboth => absurd hboth.2 (by decide)
      show ((if sync.deleteGuardrails.ignoreErrors = false ∧ e.phase = .deletingDuring then
          SyncExecutionPhase.stopped else e.phase) = .copying ∧
        e.activeTransfers - 1 = 0 ∧ e.transfersIssued ∧
        sync.mode ≠ .copy ∧ e.runPlan.deletes ≠ [] ∧ true = true ∧
        sync.deleteGuardrails.ignoreErrors = false) ↔ _
      rw [hkept, hone]
      simp [hmode, hdeletes, Except.isOk, Except.toBool]

/-- What is copied after deletes is copied by a sync, with no delete left in flight. -/
theorem Coherent.copying_after_deletes {sync : SyncState} {issued inFlight : List PendingSyncTask}
    (h : Coherent start runPlan sync e issued inFlight) (hphase : e.phase = .copying)
    (hdeleted : 0 < e.nextDeleteIndex) : sync.mode ≠ .copy ∧ e.activeDeleteBatches = 0 := by
  have hphased := h.phased
  simp only [Phased, hphase] at hphased
  obtain ⟨hidle, -, hfirst⟩ := hphased
  have hsync : start.mode = .sync := (hfirst.resolve_left (by omega)).1
  refine ⟨?_, hidle⟩
  rw [h.mode_eq, hsync]
  decide

/-- The copying is over after deletes exactly if the last transfer in flight is answered
and one has failed. -/
theorem Coherent.skips_resultHandled {sync : SyncState} {issued inFlight : List PendingSyncTask}
    (h : Coherent start runPlan sync e issued inFlight) {i : Nat} {task : PendingSyncTask}
    (hi : inFlight[i]? = some task) (answer : Except String Unit)
    (hdeleted : 0 < e.nextDeleteIndex) :
    (e.resultHandled sync.deleteGuardrails.ignoreErrors (task.intoTask answer)).Skips sync ↔
      e.phase = .copying ∧ e.activeTransfers = 1 ∧ e.transfersIssued ∧
        (e.transferFailed = true ∨ answer.isOk = false) ∧
        sync.deleteGuardrails.ignoreErrors = false := by
  have hdeletes : e.runPlan.deletes ≠ [] := by
    have hle := h.accounted.deletes_le
    exact List.length_pos_iff.mp (by omega)
  by_cases hphase : e.phase = .copying
  · obtain ⟨hmode, hidle⟩ := h.copying_after_deletes hphase hdeleted
    have htransfer : task.isTransfer = true := by
      by_contra hdelete
      have hbusy := h.accounted.activeDeletes_pos hi
        (by simpa [PendingSyncTask.isDelete] using hdelete)
      omega
    have hactive := h.accounted.activeTransfers_pos hi htransfer
    cases task with
    | deleteRemote connectionId bucket keys bytes label => cases htransfer
    | deleteLocal path bytes label => cases htransfer
    | transfer item =>
        rw [skips_transferAnswered hphase hmode hdeletes hactive item answer]
        exact (and_iff_right hphase).symm
  · refine iff_of_false (fun hskips => ?_) (fun hlast => hphase hlast.1)
    rcases resultHandled_phase e sync.deleteGuardrails.ignoreErrors (task.intoTask answer) with
      hsame | hstopped
    · exact hphase (hsame.symm.trans hskips.1)
    · have hboth := hstopped.symm.trans hskips.1
      cases hboth

/-- One event keeps the report true exactly if it does not fail after the deletes. -/
theorem SyncRun.SkipHolds.step (hholds : run.SkipHolds start runPlan)
    {event : SyncRunEvent} (hown : run.Own event) :
    (run.step event).SkipHolds start runPlan ∧
      (run.TruthfulSkip → ((run.step event).TruthfulSkip ↔ ¬ run.FailsAfterDeletes event)) := by
  obtain ⟨e, hcoherent, hbase⟩ := hholds
  cases event with
  | edit after =>
      have hedited : Coherent start runPlan (run.step (.edit after)).sync e
          (run.step (.edit after)).issued (run.step (.edit after)).inFlight :=
        hcoherent.edited hown
      refine ⟨⟨e, hedited, hbase⟩, fun htruthful => iff_of_true ?_ id⟩
      rw [SyncRun.truthfulSkip_iff hedited hbase]
      rwa [SyncRun.truthfulSkip_iff hcoherent hbase] at htruthful
  | deliver i answer =>
      cases hi : run.inFlight[i]? with
      | none =>
          rw [SyncRun.deliver_none hi]
          refine ⟨⟨e, hcoherent, hbase⟩, fun htruthful => iff_of_true htruthful ?_⟩
          simp only [SyncRun.FailsAfterDeletes, hi, not_false_eq_true]
      | some task =>
          obtain ⟨next, hexec, hnext, hflag, hindex⟩ :=
            SyncRun.deliver_skip hcoherent hbase hi answer
          obtain ⟨_, _, x, -, -, -, -, hdispatched, -, hafter, -⟩ :=
            SyncRun.deliver_spec hcoherent hi answer
          have hsame : x = next :=
            Option.some.inj (hdispatched.execution_eq.symm.trans hexec)
          subst hsame
          refine ⟨⟨x, hafter, hnext⟩, fun _ => ?_⟩
          rw [SyncRun.truthfulSkip_iff hafter hnext]
          simp only [SyncRun.FailsAfterDeletes, hi, hcoherent.execution_eq]
          by_cases hdeleted : 0 < e.nextDeleteIndex
          · rw [hcoherent.skips_resultHandled hi answer hdeleted] at hflag
            constructor
            · rintro htold ⟨hphase, -, hlast, hissued, hfailed, hignore⟩
              have hraised := hflag.mpr ⟨hphase, hlast, hissued, hfailed, hignore⟩
              have hnone := htold hraised
              rw [hindex hraised] at hnone
              omega
            · intro hfails hraised
              obtain ⟨hphase, hlast, hissued, hfailed, hignore⟩ := hflag.mp hraised
              exact absurd ⟨hphase, hdeleted, hlast, hissued, hfailed, hignore⟩ hfails
          · refine iff_of_true (fun hraised => ?_) fun hfails => hdeleted hfails.2.1
            rw [hindex hraised]
            omega

theorem SyncRun.start_skipHolds (hplan : start.runPlan = some runPlan)
    (hmode : start.mode ≠ .diff) :
    (SyncRun.start start).SkipHolds start runPlan ∧ (SyncRun.start start).TruthfulSkip := by
  obtain ⟨e, hcoherent⟩ := coherent_start hplan hmode
  have hfresh : e.transferFailed = false ∧ e.deletePhaseSkipped = false := by
    rw [startExecution_fresh hplan hmode hcoherent.execution_eq]
    exact ⟨rfl, rfl⟩
  have hnone : e.transferFailed = true → 0 < e.failedTransfers := by
    rw [hfresh.1]
    exact nofun
  obtain ⟨next, hexec, hbase, hflag, -⟩ := hcoherent.dispatch_skip hnone hfresh.2
  obtain ⟨x, hdispatched, hafter, -⟩ := hcoherent.dispatch
  have hsame : x = next := Option.some.inj (hdispatched.execution_eq.symm.trans hexec)
  subst hsame
  refine ⟨⟨x, hafter, hbase⟩, (SyncRun.truthfulSkip_iff hafter hbase).mpr fun hraised => ?_⟩
  have hfailed := (hflag.mp hraised).2.2.2.2.2.1
  rw [hfresh.1] at hfailed
  cases hfailed

end

/-- A run reports truly in every state whether its deletes were skipped, exactly if its
copying never ends with a failed transfer after the deletes have gone first. -/
theorem run_skip_truthful_iff {start : SyncState} {runPlan : SyncRunPlan}
    (hplan : start.runPlan = some runPlan) (hmode : start.mode ≠ .diff)
    {events : List SyncRunEvent}
    (hown : Along SyncRun.step SyncRun.Own (SyncRun.start start) events) :
    (∀ earlier, earlier <+: events →
        (run SyncRun.step (SyncRun.start start) earlier).TruthfulSkip) ↔
      Along SyncRun.step (fun run event => ¬ run.FailsAfterDeletes event)
        (SyncRun.start start) events := by
  obtain ⟨hholds, htruthful⟩ := SyncRun.start_skipHolds hplan hmode
  refine forall_prefix_iff_along (SyncRun.SkipHolds start runPlan) SyncRun.TruthfulSkip ?_ ?_
    hholds htruthful hown
  · intro run event hbase hown
    exact (hbase.step hown).1
  · intro run event hbase hown
    exact (hbase.step hown).2

/-- Deletes that go first and a transfer that succeeds. -/
theorem run_skip_truthful_iff_deletes_first :
    Along SyncRun.step (fun run event => ¬ run.FailsAfterDeletes event)
        (SyncRun.start deletesThenCopy) [.deliver 0 (.ok ()), .deliver 0 (.ok ())] ∧
      ∀ earlier, earlier <+: [SyncRunEvent.deliver 0 (.ok ()), .deliver 0 (.ok ())] →
        (run SyncRun.step (SyncRun.start deletesThenCopy) earlier).TruthfulSkip := by
  have hplan : deletesThenCopy.runPlan = some twoDeletesPlan := rfl
  have hown : Along SyncRun.step SyncRun.Own (SyncRun.start deletesThenCopy)
      [.deliver 0 (.ok ()), .deliver 0 (.ok ())] := ⟨trivial, trivial, trivial⟩
  have hnever : Along SyncRun.step (fun run event => ¬ run.FailsAfterDeletes event)
      (SyncRun.start deletesThenCopy) [.deliver 0 (.ok ()), .deliver 0 (.ok ())] := by
    refine ⟨?_, ?_, trivial⟩
    · rintro ⟨hphase, -⟩
      exact absurd hphase (by decide)
    · rintro ⟨-, -, -, -, hfailed, -⟩
      exact absurd hfailed (by decide)
  exact ⟨hnever, (run_skip_truthful_iff hplan (by decide) hown).mpr hnever⟩

/-- The deletes go first, then the transfer fails: the run says that it skipped them. -/
theorem run_claims_skip_after_deletes :
    ¬ ∀ (start : SyncState) (runPlan : SyncRunPlan), start.runPlan = some runPlan →
      start.mode ≠ .diff → ∀ events,
        Along SyncRun.step SyncRun.Own (SyncRun.start start) events →
          (run SyncRun.step (SyncRun.start start) events).TruthfulSkip := by
  intro h
  have hown : Along SyncRun.step SyncRun.Own (SyncRun.start deletesThenCopy)
      [.deliver 0 (.ok ()), .deliver 0 (.error "")] := ⟨trivial, trivial, trivial⟩
  have htruthful := h deletesThenCopy twoDeletesPlan rfl (by decide) _ hown
  have hshown : (run SyncRun.step (SyncRun.start deletesThenCopy)
      [.deliver 0 (.ok ()), .deliver 0 (.error "")]).sync.execution.map
        (fun e => (e.deletePhaseSkipped, e.nextDeleteIndex)) = some (true, 2) := by decide
  obtain ⟨e, hexec, hfields⟩ := Option.map_eq_some_iff.mp hshown
  obtain ⟨hraised, hdeleted⟩ := Prod.mk.inj hfields
  have hnone := (htruthful e hexec).1 hraised
  rw [hdeleted] at hnone
  cases hnone

end AbixioUi
