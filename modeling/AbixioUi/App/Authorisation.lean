import AbixioUi.App.Review

/-! # What allows a run to delete

A sync run with deletes starts in two steps: the start checks the plan and opens a
dialog, the confirmation reads the run plan again and starts. Between the two steps
every message may arrive; an invariant ties the dialog to the plan on the screen and
the run to the dialog it was confirmed in.
-/

namespace AbixioUi

open Foundation

/-! ## Runs that delete nothing -/

/-- No task of the execution deletes while the mode stays as it is. -/
def SyncExecutionState.DeleteFree (mode : SyncMode) (execution : SyncExecutionState) : Prop :=
  execution.runPlan.deletes = [] ∨
    mode = .copy ∧ (execution.phase = .copying ∨ execution.phase = .done ∨
      execution.phase = .stopped)

theorem DeleteFree.phaseStep {sync : SyncState} {e e' : SyncExecutionState}
    (h : e.DeleteFree sync.mode) (hstep : phaseStep sync e = some e') :
    e'.DeleteFree sync.mode := by
  rcases h with hnil | ⟨hcopy, hphase⟩
  · left
    rcases phaseStep_cases hstep with ⟨-, -, -, rfl⟩ | ⟨-, -, -, hnext⟩ | ⟨-, -, -, rfl⟩
    · exact hnil
    · rcases hnext with ⟨-, rfl⟩ | ⟨-, -, -, rfl⟩ | ⟨-, -, rfl⟩ <;> exact hnil
    · exact hnil
  · refine .inr ⟨hcopy, ?_⟩
    rcases phaseStep_cases hstep with ⟨hp, -⟩ | ⟨-, -, -, hnext⟩ | ⟨hp, -⟩
    · rw [hp] at hphase
      simp at hphase
    · rcases hnext with ⟨-, rfl⟩ | ⟨hnot, -⟩ | ⟨hnot, -⟩
      · exact .inr (.inl rfl)
      · exact absurd hcopy hnot
      · exact absurd hcopy hnot
    · rcases hp with ⟨hp, -⟩ | hp <;> rw [hp] at hphase <;> simp at hphase

theorem phaseLoop_runPlan (sync : SyncState) (fuel : Nat) (e : SyncExecutionState) :
    (phaseLoop sync fuel e).runPlan = e.runPlan := by
  refine phaseLoop_invariant (fun x => x.runPlan = e.runPlan) ?_ fuel rfl
  intro x x' hx hstep
  rcases phaseStep_cases hstep with ⟨-, -, -, rfl⟩ | ⟨-, -, -, hnext⟩ | ⟨-, -, -, rfl⟩
  · exact hx
  · rcases hnext with ⟨-, rfl⟩ | ⟨-, -, -, rfl⟩ | ⟨-, -, rfl⟩ <;> exact hx
  · exact hx

theorem HandsOut.no_delete {specs : List PendingSyncTask} {transfers : List SyncRunItem}
    (h : HandsOut specs transfers []) : ∀ spec ∈ specs, spec.isDelete = false := by
  intro spec hspec
  cases hdelete : spec.isDelete with
  | false => rfl
  | true =>
      have htargets : spec.deleteTargets = [] :=
        List.flatMap_eq_nil_iff.mp h.deletes_eq spec hspec
      exact absurd htargets (h.targets_ne spec hspec hdelete)

/-- A dispatch keeps the run plan, and a run that deletes nothing stays one. -/
theorem dispatchSyncExecution_run {sync : SyncState} {e : SyncExecutionState}
    (h : sync.execution = some e) :
    ∃ next stage, (dispatchSyncExecution sync).1 =
        { sync with
          execution := some next
          telemetry := { sync.telemetry with stage := stage } } ∧
      next.runPlan = e.runPlan ∧
      (e.DeleteFree sync.mode →
        next.DeleteFree sync.mode ∧
          ∀ spec ∈ (dispatchSyncExecution sync).2, spec.isDelete = false) := by
  obtain ⟨next, hd⟩ := dispatchSyncExecution_spec h
  obtain ⟨execution, stage, hframe⟩ := dispatchSyncExecution_frame sync
  have hnext : execution = some next := by
    have hexecution := hd.execution_eq
    rw [hframe] at hexecution
    exact hexecution
  subst hnext
  obtain ⟨n, m, hpulled, hcopying, -⟩ := hd.pulled
  obtain ⟨_, _, _, _, hnext⟩ := hpulled.next_eq
  have hplan : next.runPlan = (phaseLoop sync PHASE_TURNS e).runPlan := by rw [hnext]
  have hphase : next.phase = (phaseLoop sync PHASE_TURNS e).phase := by rw [hnext]
  refine ⟨next, stage, hframe, hplan.trans (phaseLoop_runPlan sync PHASE_TURNS e), ?_⟩
  intro hfree
  have hloop : (phaseLoop sync PHASE_TURNS e).DeleteFree sync.mode :=
    phaseLoop_invariant (fun x => x.DeleteFree sync.mode)
      (fun _ _ hx hstep => DeleteFree.phaseStep hx hstep) PHASE_TURNS hfree
  refine ⟨?_, ?_⟩
  · unfold SyncExecutionState.DeleteFree at hloop ⊢
    rw [hplan, hphase]
    exact hloop
  · rcases hloop with hnil | ⟨-, hp | hp⟩
    · have hand := hpulled.handsOut
      rw [hnil, List.drop_nil, List.take_nil] at hand
      exact hand.no_delete
    · intro spec hspec
      have hnone := List.countP_eq_zero.mp (hcopying hp).2 spec hspec
      simpa using hnone
    · rw [hd.final hp]
      simp

theorem resultHandled_deleteFree {mode : SyncMode} {e : SyncExecutionState}
    (h : e.DeleteFree mode) (ignoreErrors : Bool) (result : SyncRunResult) :
    (e.resultHandled ignoreErrors result).DeleteFree mode := by
  rcases h with hnil | ⟨hcopy, hphase⟩
  · left
    rw [(resultHandled_frame e ignoreErrors result).1]
    exact hnil
  · refine .inr ⟨hcopy, ?_⟩
    have hcases : (e.resultHandled ignoreErrors result).phase = e.phase ∨
        (e.resultHandled ignoreErrors result).phase = .stopped := by
      rcases result with (_ | _) | (_ | _)
      · exact (ite_eq_or_eq _ _ _).symm
      · exact .inl rfl
      · exact (ite_eq_or_eq _ _ _).symm
      · exact .inl rfl
    rcases hcases with hsame | hstopped
    · rw [hsame]
      exact hphase
    · exact .inr (.inr hstopped)

/-! ## Authorised deletes -/

/-- The run plan on the screen is prepared from the plan beside it, which compares the
two listings that were scanned. -/
structure PreparedFrom (platform : Platform) (sync : SyncState) (runPlan : SyncRunPlan)
    (source destination : List SyncObject) (plan : SyncPlan) : Prop where
  built : ∃ mode policy compareMode,
    plan = buildSyncPlan source destination mode policy compareMode
  plan_eq : sync.plan = some plan
  prepared : prepareSyncRunPlan platform sync plan = .ok runPlan
  sourceScanned : sync.telemetry.sourceScanned = source.length
  destinationScanned : sync.telemetry.destinationScanned = destination.length

/-- The dialog was opened for the run plan, on a screen whose checks it passed. -/
structure Opened (platform : Platform) (opened : SyncState) (runPlan : SyncRunPlan)
    (source destination : List SyncObject) (plan : SyncPlan)
    (dialog : SyncDeleteConfirmState) : Prop
    extends PreparedFrom platform opened runPlan source destination plan where
  mode : opened.mode = .sync
  runPlan_eq : opened.runPlan = some runPlan
  no_conflicts : plan.summary.conflicts = 0
  guardrails : validateSyncGuardrails opened runPlan = .ok ()
  dialog_eq : { dialog with confirmText := [] } = buildDeleteConfirmState opened runPlan

/-- A run plan with deletes that was reviewed on one screen and confirmed on another:
the dialog counts its deletes, they are within the limits, the plan has no conflicts,
and where a reason asks for it the number of deletes was typed. -/
structure Authorised (platform : Platform) (opened confirmed : SyncState)
    (runPlan : SyncRunPlan) (source destination : List SyncObject) (plan : SyncPlan)
    (dialog : SyncDeleteConfirmState) : Prop where
  prepared : PreparedFrom platform opened runPlan source destination plan
  opened_mode : opened.mode = .sync
  confirmed_mode : confirmed.mode = .sync
  opened_runPlan : opened.runPlan = some runPlan
  confirmed_runPlan : confirmed.runPlan = some runPlan
  no_conflicts : plan.summary.conflicts = 0
  confirmed_dialog : confirmed.deleteConfirm = some dialog
  deletes_eq : dialog.plannedDeletes = runPlan.deletes.length
  bytes_eq : dialog.plannedDeleteBytes = runPlan.totalDeleteBytes
  count_limit : ∃ limit,
    parseOptionalUsize confirmed.deleteGuardrails.maxDeleteCountText "Max delete count" =
      .ok limit ∧ ∀ n, limit = some n → runPlan.deletes.length ≤ n
  bytes_limit : ∃ limit,
    parseOptionalU64 confirmed.deleteGuardrails.maxDeleteBytesText "Max delete bytes" =
      .ok limit ∧ ∀ n, limit = some n → runPlan.totalDeleteBytes ≤ n
  typed : (deleteConfirmReason runPlan.deletes.length runPlan.totalDeleteBytes
      destination.length source.length).isSome = true →
    trim dialog.confirmText = "delete ".toList ++ natToStr runPlan.deletes.length

/-- The current run was confirmed, its run plan is authorised, and the screen still has
the mode and the guardrails it was confirmed with. -/
def Approves (platform : Platform) (approval : Approval) (sync : SyncState)
    (runPlan : SyncRunPlan) : Prop :=
  ∃ opened confirmed source destination plan dialog,
    approval.confirmed = some (opened, confirmed) ∧
      Authorised platform opened confirmed runPlan source destination plan dialog ∧
      sync.mode = .sync ∧ sync.deleteGuardrails = confirmed.deleteGuardrails

/-- What the steps of the screen maintain: the run plan belongs to the plan, the dialog
to the run plan, and a run that deletes to a confirmed dialog. -/
structure Secure (platform : Platform) (approval : Approval) (sync : SyncState) : Prop where
  prepared : ∀ runPlan, sync.runPlan = some runPlan →
    ∃ source destination plan, PreparedFrom platform sync runPlan source destination plan
  dialog : ∀ dialog, sync.deleteConfirm = some dialog →
    ∃ opened runPlan source destination plan, approval.opened = some opened ∧
      Opened platform opened runPlan source destination plan dialog ∧ opened.SameReview sync
  run : ∀ execution, sync.execution = some execution →
    execution.DeleteFree sync.mode ∨ Approves platform approval sync execution.runPlan

/-- What one message maintains, and what it needs to hand out a delete. -/
structure Secured (platform : Platform) (approval : Approval) (result : App × List AppTask) :
    Prop where
  screen : ∀ after, result.1.sync = some after → Secure platform approval after
  deletes : ∀ spec clients, AppTask.runSync spec clients ∈ result.2 → spec.isDelete = true →
    ∃ after execution, result.1.sync = some after ∧ after.execution = some execution ∧
      Approves platform approval after execution.runPlan

section Secure

variable {platform : Platform} {approval : Approval} {before after : SyncState}

theorem SyncState.Idle.secure (h : after.Idle) : Secure platform approval after where
  prepared := by
    intro runPlan hsome
    cases h.runPlan_eq.symm.trans hsome
  dialog := by
    intro dialog hsome
    cases h.deleteConfirm_eq.symm.trans hsome
  run := by
    intro execution hsome
    cases h.execution_eq.symm.trans hsome

theorem SyncState.SamePlan.mode_eq (h : before.SamePlan after) : after.mode = before.mode :=
  congrArg PlanConfig.mode h.config_eq

theorem PreparedFrom.same {runPlan : SyncRunPlan} {source destination : List SyncObject}
    {plan : SyncPlan} (h : PreparedFrom platform before runPlan source destination plan)
    (hsame : before.SameReview after) :
    PreparedFrom platform after runPlan source destination plan where
  built := h.built
  plan_eq := hsame.plan_eq.trans h.plan_eq
  prepared := (prepareSyncRunPlan_planConfig platform hsame.config_eq plan).trans h.prepared
  sourceScanned := hsame.sourceScanned_eq.trans h.sourceScanned
  destinationScanned := hsame.destinationScanned_eq.trans h.destinationScanned

theorem Approves.same {runPlan : SyncRunPlan} (h : Approves platform approval before runPlan)
    (hmode : after.mode = before.mode)
    (hguardrails : after.deleteGuardrails = before.deleteGuardrails) :
    Approves platform approval after runPlan := by
  obtain ⟨opened, confirmed, source, destination, plan, dialog, hconfirmed, hauthorised, hsync,
    hheld⟩ := h
  exact ⟨opened, confirmed, source, destination, plan, dialog, hconfirmed, hauthorised,
    hmode.trans hsync, hguardrails.trans hheld⟩

/-- The same work is as secure as before. -/
theorem Secure.same (h : Secure platform approval before) (hsame : before.SameWork after) :
    Secure platform approval after where
  prepared := by
    intro runPlan hsome
    obtain ⟨source, destination, plan, hprepared⟩ :=
      h.prepared runPlan (hsame.runPlan_eq ▸ hsome)
    exact ⟨source, destination, plan, hprepared.same hsame.toSameReview⟩
  dialog := by
    intro dialog hsome
    obtain ⟨opened, runPlan, source, destination, plan, hopened, hdialog, hreview⟩ :=
      h.dialog dialog (hsame.deleteConfirm_eq ▸ hsome)
    exact ⟨opened, runPlan, source, destination, plan, hopened, hdialog,
      hreview.trans hsame.toSameReview⟩
  run := by
    intro execution hsome
    have hmode := hsame.toSamePlan.mode_eq
    rcases h.run execution (hsame.execution_eq ▸ hsome) with hfree | happroves
    · exact .inl (hmode ▸ hfree)
    · exact .inr (happroves.same hmode hsame.guardrails_eq)

/-- Nothing but the screen moves. -/
theorem Secured.quiet {app : App} (h : Secure platform approval after) :
    Secured platform approval ({ app with sync := some after }, []) := by
  refine ⟨fun after' hafter => ?_, by simp⟩
  obtain rfl : after = after' := Option.some.inj hafter
  exact h

theorem Secured.unchanged {app : App} (hsync : app.sync = some after)
    (h : Secure platform approval after) : Secured platform approval (app, []) := by
  refine ⟨fun after' hafter => ?_, by simp⟩
  obtain rfl : after = after' := Option.some.inj (hsync.symm.trans hafter)
  exact h

/-- A new run on the reviewed screen, without a dialog. -/
theorem Secure.started {approval' : Approval} {execution : SyncExecutionState}
    (h : Secure platform approval before) (hreview : before.SameReview after)
    (hconfirm : after.deleteConfirm = none) (hexecution : after.execution = some execution)
    (hrun : execution.DeleteFree after.mode ∨
      Approves platform approval' after execution.runPlan) :
    Secure platform approval' after where
  prepared := by
    intro runPlan hsome
    obtain ⟨source, destination, plan, hprepared⟩ :=
      h.prepared runPlan (hreview.runPlan_eq ▸ hsome)
    exact ⟨source, destination, plan, hprepared.same hreview⟩
  dialog := by
    intro dialog hsome
    cases hconfirm.symm.trans hsome
  run := by
    intro execution' hsome
    obtain rfl : execution = execution' := Option.some.inj (hexecution.symm.trans hsome)
    exact hrun

/-- A dispatch hands out a delete only when the run is approved. -/
theorem Secure.dispatched (surroundings : Surroundings) (app : App)
    (h : Secure platform approval before) :
    Secured platform approval (app.dispatched surroundings (dispatchSyncExecution before)) := by
  cases hexecution : before.execution with
  | none =>
      have hquiet : dispatchSyncExecution before = (before, []) := by
        simp [dispatchSyncExecution, hexecution]
      rw [hquiet]
      exact .quiet h
  | some execution =>
      obtain ⟨next, stage, hafter, hplan, hfree⟩ := dispatchSyncExecution_run hexecution
      have hreview := dispatchSyncExecution_sameReview before
      have hrun : next.DeleteFree before.mode ∧
            (∀ spec ∈ (dispatchSyncExecution before).2, spec.isDelete = false) ∨
          Approves platform approval before next.runPlan := by
        rcases h.run execution hexecution with hnone | happroves
        · exact .inl (hfree hnone)
        · exact .inr (hplan ▸ happroves)
      have happroved : ∀ runPlan, Approves platform approval before runPlan →
          Approves platform approval (dispatchSyncExecution before).1 runPlan :=
        fun runPlan happroves => happroves.same hreview.mode_eq hreview.guardrails_eq
      refine ⟨fun after hsome => ?_, fun spec clients hspec hdelete => ?_⟩
      · obtain rfl : _ = after := Option.some.inj hsome
        refine ⟨?_, ?_, ?_⟩
        · intro runPlan hrunPlan
          obtain ⟨source, destination, plan, hprepared⟩ :=
            h.prepared runPlan (hreview.runPlan_eq ▸ hrunPlan)
          exact ⟨source, destination, plan, hprepared.same hreview⟩
        · intro dialog hdialog
          rw [hafter] at hdialog
          obtain ⟨opened, runPlan, source, destination, plan, hopened, hdialog', hsame⟩ :=
            h.dialog dialog hdialog
          exact ⟨opened, runPlan, source, destination, plan, hopened, hdialog',
            hsame.trans hreview⟩
        · intro execution' hexecution'
          rw [hafter] at hexecution'
          obtain rfl : next = execution' := Option.some.inj hexecution'
          rw [hreview.mode_eq]
          exact hrun.imp And.left (happroved _)
      · obtain ⟨spec', hmem, heq⟩ := List.mem_map.mp hspec
        obtain rfl : spec' = spec := (AppTask.runSync.inj heq).1
        rcases hrun with ⟨-, hnone⟩ | happroves
        · rw [hnone spec' hmem] at hdelete
          cases hdelete
        · refine ⟨(dispatchSyncExecution before).1, next, rfl, ?_, ?_⟩
          · rw [hafter]
          · exact happroved next.runPlan happroves

end Secure

/-! ## The dialog -/

theorem startable_ok {sync : SyncState} {runPlan : SyncRunPlan}
    (h : sync.startable = .ok runPlan) :
    sync.runPlan = some runPlan ∧ validateSyncGuardrails sync runPlan = .ok () ∧
      ∀ plan, sync.plan = some plan → plan.summary.conflicts = 0 := by
  unfold SyncState.startable at h
  cases hplan : sync.plan with
  | none => simp [hplan] at h
  | some plan =>
      simp only [hplan] at h
      split at h
      next => cases h
      next hconflicts =>
        cases hrunPlan : sync.runPlan with
        | none => simp [hrunPlan] at h
        | some runPlan' =>
            simp only [hrunPlan] at h
            split at h
            next => cases h
            next =>
              cases hguard : validateSyncGuardrails sync runPlan' with
              | error e => simp [hguard, Except.map] at h
              | ok _ =>
                  obtain rfl : runPlan' = runPlan := by simpa [hguard, Except.map] using h
                  refine ⟨rfl, hguard, fun plan' hplan' => ?_⟩
                  obtain rfl : plan = plan' := Option.some.inj hplan'
                  omega

/-- The dialog that the start opens on a secure screen. -/
theorem Secure.opens {platform : Platform} {approval : Approval} {sync : SyncState}
    (h : Secure platform approval sync) {runPlan : SyncRunPlan} (hmode : sync.mode = .sync)
    (hstartable : sync.startable = .ok runPlan) :
    ∃ source destination plan, Opened platform sync runPlan source destination plan
      (buildDeleteConfirmState sync runPlan) := by
  obtain ⟨hrunPlan, hguardrails, hconflicts⟩ := startable_ok hstartable
  obtain ⟨source, destination, plan, hprepared⟩ := h.prepared runPlan hrunPlan
  exact ⟨source, destination, plan, hprepared, hmode, hrunPlan,
    hconflicts plan hprepared.plan_eq, hguardrails, rfl⟩

/-- An accepted dialog authorises the run plan on the screen. -/
theorem Opened.authorised {platform : Platform} {opened confirmed : SyncState}
    {runPlan : SyncRunPlan} {source destination : List SyncObject} {plan : SyncPlan}
    {dialog : SyncDeleteConfirmState}
    (h : Opened platform opened runPlan source destination plan dialog)
    (hreview : opened.SameReview confirmed) (hdialog : confirmed.deleteConfirm = some dialog)
    (haccepted : dialog.typedRequired = true → trim dialog.confirmText = dialog.expected) :
    Authorised platform opened confirmed runPlan source destination plan dialog := by
  have hfields := h.dialog_eq
  simp only [buildDeleteConfirmState, SyncDeleteConfirmState.mk.injEq] at hfields
  obtain ⟨hdeletes, hbytes, htyped, -, -⟩ := hfields
  obtain ⟨hcount, hlimit⟩ := validateSyncGuardrails_ok h.guardrails
  rw [← hreview.guardrails_eq] at hcount hlimit
  refine ⟨h.toPreparedFrom, h.mode, hreview.mode_eq.trans h.mode, h.runPlan_eq,
    hreview.runPlan_eq.trans h.runPlan_eq, h.no_conflicts, hdialog, hdeletes, hbytes, hcount,
    hlimit, fun hreason => ?_⟩
  rw [h.sourceScanned, h.destinationScanned] at htyped
  have hexpected := haccepted (htyped.trans hreason)
  unfold SyncDeleteConfirmState.expected at hexpected
  rw [hdeletes] at hexpected
  exact hexpected

/-! ## Handlers -/

section Handlers

variable {platform : Platform} {surroundings : Surroundings} {app : App} {approval : Approval}
  {sync : SyncState}

theorem Approval.after_eq {message : Message} (hopens : sync.opens message = false)
    (hstarts : sync.starts message = false) : approval.after sync message = approval := by
  simp [Approval.after, hopens, hstarts]

/-- The first state of a sync run, on the screen that starts it. -/
theorem startSyncExecution_eq (ready : SyncState) {runPlan : SyncRunPlan}
    (h : ready.runPlan = some runPlan) :
    ∃ execution, (startSyncExecution ready).execution = some execution ∧
      execution.runPlan = runPlan ∧
      (startSyncExecution ready).deleteConfirm = ready.deleteConfirm := by
  unfold startSyncExecution
  split
  next hnone => cases hnone.symm.trans h
  next runPlan' hsome =>
    obtain rfl : runPlan' = runPlan := Option.some.inj (hsome.symm.trans h)
    exact ⟨_, rfl, rfl, rfl⟩

theorem startCopyExecution_eq {ready : SyncState} {runPlan : SyncRunPlan}
    (h : ready.runPlan = some runPlan) :
    ∃ execution, (startCopyExecution ready).execution = some execution ∧
      execution.phase = .copying ∧
      (startCopyExecution ready).deleteConfirm = ready.deleteConfirm := by
  unfold startCopyExecution
  split
  next hnone => cases hnone.symm.trans h
  next => exact ⟨_, rfl, rfl, rfl⟩

theorem handleStartSyncCopy_secured (hsync : app.sync = some sync)
    (h : Secure platform approval sync) :
    Secured platform (approval.after sync .startSyncCopy)
      (handleStartSyncCopy surroundings app) := by
  unfold handleStartSyncCopy
  simp only [hsync]
  by_cases hmode : sync.mode = .copy
  · rw [if_neg (not_not.mpr hmode)]
    split
    next hrunPlan =>
      rw [Approval.after_eq rfl (by simp [SyncState.starts, hrunPlan])]
      exact .quiet (h.same ⟨⟨⟨rfl, rfl, rfl, rfl⟩, rfl, rfl, rfl⟩, rfl, rfl⟩)
    next runPlan hrunPlan =>
      split
      next hnil =>
        rw [Approval.after_eq rfl (by simp [SyncState.starts, hrunPlan, hnil])]
        exact .quiet (h.same ⟨⟨⟨rfl, rfl, rfl, rfl⟩, rfl, rfl, rfl⟩, rfl, rfl⟩)
      next =>
        apply Secure.dispatched
        have hnone : sync.deleteConfirm = none := by
          cases hdialog : sync.deleteConfirm with
          | none => rfl
          | some dialog =>
              obtain ⟨opened, _, _, _, _, -, hopened, hreview⟩ := h.dialog dialog hdialog
              have hconflict := hreview.mode_eq.trans hopened.mode
              rw [hmode] at hconflict
              cases hconflict
        obtain ⟨execution, hexecution, hphase, hconfirm⟩ := startCopyExecution_eq hrunPlan
        have hsame := (startCopyExecution_spec sync).1
        refine h.started hsame (hconfirm.trans hnone) hexecution (.inl (.inr ⟨?_, .inl hphase⟩))
        exact hsame.mode_eq.trans hmode
  · rw [if_pos hmode, Approval.after_eq rfl (by simp [SyncState.starts, hmode])]
    exact .unchanged hsync h

theorem handleStartSync_secured (hsync : app.sync = some sync)
    (h : Secure platform approval sync) :
    Secured platform (approval.after sync .startSync) (handleStartSync surroundings app) := by
  unfold handleStartSync
  simp only [hsync]
  by_cases hmode : sync.mode = .sync
  · rw [if_neg (not_not.mpr hmode)]
    cases hstartable : sync.startable with
    | error error =>
        rw [Approval.after_eq (by simp [SyncState.opens, hstartable])
          (by simp [SyncState.starts, hstartable])]
        exact .quiet (h.same ⟨⟨⟨rfl, rfl, rfl, rfl⟩, rfl, rfl, rfl⟩, rfl, rfl⟩)
    | ok runPlan =>
        obtain ⟨hrunPlan, -, -⟩ := startable_ok hstartable
        by_cases hnil : runPlan.deletes = []
        · simp only [hnil, if_true]
          apply Secure.dispatched
          obtain ⟨execution, hexecution, hplan, hconfirm⟩ := startSyncExecution_eq
            { sync with error := none, deleteConfirm := none } hrunPlan
          refine h.started (startSyncExecution_ready_sameReview sync) hconfirm hexecution
            (.inl (.inl ?_))
          rw [hplan]
          exact hnil
        · have hafter : approval.after sync .startSync = ⟨some sync, approval.confirmed⟩ := by
            simp [Approval.after, SyncState.opens, SyncState.starts, hmode, hstartable, hnil]
          simp only [hnil, if_false]
          rw [hafter]
          obtain ⟨source, destination, plan, hopened⟩ := h.opens hmode hstartable
          apply Secured.quiet
          refine ⟨?_, ?_, ?_⟩
          · intro runPlan' hrunPlan'
            obtain ⟨source, destination, plan, hprepared⟩ := h.prepared runPlan' hrunPlan'
            exact ⟨source, destination, plan,
              hprepared.same ⟨⟨rfl, rfl, rfl, rfl⟩, rfl, rfl, rfl⟩⟩
          · intro dialog hdialog
            obtain rfl := Option.some.inj hdialog
            exact ⟨sync, runPlan, source, destination, plan, rfl, hopened,
              ⟨rfl, rfl, rfl, rfl⟩, rfl, rfl, rfl⟩
          · intro execution hexecution
            exact h.run execution hexecution
  · rw [if_pos hmode, Approval.after_eq (by simp [SyncState.opens, hmode])
      (by simp [SyncState.starts, hmode])]
    exact .unchanged hsync h

theorem handleConfirmSyncDeleteRun_secured (hsync : app.sync = some sync)
    (h : Secure platform approval sync) :
    Secured platform (approval.after sync .confirmSyncDeleteRun)
      (handleConfirmSyncDeleteRun surroundings app) := by
  unfold handleConfirmSyncDeleteRun
  simp only [hsync]
  split
  next hdialog =>
    rw [Approval.after_eq rfl (by simp [SyncState.starts, hdialog])]
    exact .unchanged hsync h
  next dialog hdialog =>
    split
    next hrefused =>
      rw [Approval.after_eq rfl (by simp [SyncState.starts, hdialog, hrefused])]
      exact .quiet (h.same ⟨⟨⟨rfl, rfl, rfl, rfl⟩, rfl, rfl, rfl⟩, rfl, rfl⟩)
    next hnot =>
      have haccepted : dialog.typedRequired = true →
          trim dialog.confirmText = dialog.expected := by
        intro htyped
        exact not_not.mp fun hne => hnot ⟨htyped, hne⟩
      have hstarts : sync.starts .confirmSyncDeleteRun = true := by
        simp only [SyncState.starts, hdialog]
        exact decide_eq_true haccepted
      obtain ⟨opened, runPlan, source, destination, plan, hheld, hopened, hreview⟩ :=
        h.dialog dialog hdialog
      have hafter : approval.after sync .confirmSyncDeleteRun =
          ⟨some opened, some (opened, sync)⟩ := by
        simp [Approval.after, SyncState.opens, hstarts, hheld]
      rw [hafter]
      apply Secure.dispatched
      have hrunPlan := hreview.runPlan_eq.trans hopened.runPlan_eq
      obtain ⟨execution, hexecution, hplan, hconfirm⟩ := startSyncExecution_eq
        { sync with deleteConfirm := none, error := none } hrunPlan
      have hsame : sync.SameReview
          (startSyncExecution { sync with deleteConfirm := none, error := none }) :=
        startSyncExecution_ready_sameReview sync
      refine h.started hsame hconfirm hexecution (.inr ?_)
      rw [hplan]
      exact ⟨opened, sync, source, destination, plan, dialog, rfl,
        hopened.authorised hreview hdialog haccepted,
        hsame.mode_eq.trans (hreview.mode_eq.trans hopened.mode), hsame.guardrails_eq⟩

/-- Typing in the dialog, or closing it, keeps the screen secure. -/
theorem Secure.dialogEdited (h : Secure platform approval sync)
    {edit : SyncDeleteConfirmState → SyncDeleteConfirmState}
    (hedit : ∀ dialog, { edit dialog with confirmText := [] } =
      { dialog with confirmText := [] }) :
    Secure platform approval { sync with deleteConfirm := sync.deleteConfirm.map edit } where
  prepared := by
    intro runPlan hrunPlan
    obtain ⟨source, destination, plan, hprepared⟩ := h.prepared runPlan hrunPlan
    exact ⟨source, destination, plan, hprepared.same ⟨⟨rfl, rfl, rfl, rfl⟩, rfl, rfl, rfl⟩⟩
  dialog := by
    intro dialog hdialog
    obtain ⟨before, hbefore, rfl⟩ := Option.map_eq_some_iff.mp hdialog
    obtain ⟨opened, runPlan, source, destination, plan, hheld, hopened, hreview⟩ :=
      h.dialog before hbefore
    refine ⟨opened, runPlan, source, destination, plan, hheld, ?_,
      hreview.trans ⟨⟨rfl, rfl, rfl, rfl⟩, rfl, rfl, rfl⟩⟩
    exact ⟨hopened.toPreparedFrom, hopened.mode, hopened.runPlan_eq, hopened.no_conflicts,
      hopened.guardrails, (hedit before).trans hopened.dialog_eq⟩
  run := fun execution hexecution => h.run execution hexecution

theorem Secure.dialogClosed (h : Secure platform approval sync) :
    Secure platform approval { sync with deleteConfirm := none } where
  prepared := by
    intro runPlan hrunPlan
    obtain ⟨source, destination, plan, hprepared⟩ := h.prepared runPlan hrunPlan
    exact ⟨source, destination, plan, hprepared.same ⟨⟨rfl, rfl, rfl, rfl⟩, rfl, rfl, rfl⟩⟩
  dialog := by
    intro dialog hdialog
    cases hdialog
  run := fun execution hexecution => h.run execution hexecution

/-- A result updates the execution, whose run plan stays, and dispatches. -/
theorem Secure.resulted (h : Secure platform approval sync) {execution : SyncExecutionState}
    (hexecution : sync.execution = some execution) (result : SyncRunResult)
    (telemetry : SyncTelemetry)
    (hsource : telemetry.sourceScanned = sync.telemetry.sourceScanned)
    (hdestination : telemetry.destinationScanned = sync.telemetry.destinationScanned) :
    Secure platform approval
      { sync with
        execution := some
          (execution.resultHandled sync.deleteGuardrails.ignoreErrors result)
        telemetry := telemetry } where
  prepared := by
    intro runPlan hrunPlan
    obtain ⟨source, destination, plan, hprepared⟩ := h.prepared runPlan hrunPlan
    exact ⟨source, destination, plan,
      hprepared.same ⟨⟨rfl, rfl, rfl, rfl⟩, rfl, hsource, hdestination⟩⟩
  dialog := by
    intro dialog hdialog
    obtain ⟨opened, runPlan, source, destination, plan, hheld, hopened, hreview⟩ :=
      h.dialog dialog hdialog
    exact ⟨opened, runPlan, source, destination, plan, hheld, hopened,
      hreview.trans ⟨⟨rfl, rfl, rfl, rfl⟩, rfl, hsource, hdestination⟩⟩
  run := by
    intro execution' hsome
    obtain rfl := Option.some.inj hsome
    rw [(resultHandled_frame execution _ result).1]
    exact (h.run execution hexecution).imp
      (fun hfree => resultHandled_deleteFree hfree _ result) fun happroves =>
        happroves.same rfl rfl

theorem handleSyncCopyStepFinished_secured (hsync : app.sync = some sync)
    (h : Secure platform approval sync) (result : Except String SyncRunItem) :
    Secured platform approval (handleSyncCopyStepFinished surroundings app result) := by
  unfold handleSyncCopyStepFinished
  simp only [hsync]
  split
  next => exact .unchanged hsync h
  next execution hexecution =>
    simp only [copyStepFinished, hexecution]
    apply Secure.dispatched
    refine h.resulted hexecution (.copyStepFinished result) _ ?_ ?_
    · cases result <;> rfl
    · cases result <;> rfl

theorem handleSyncDeleteBatchFinished_secured (hsync : app.sync = some sync)
    (h : Secure platform approval sync) (result : Except String SyncDeleteBatchResult) :
    Secured platform approval (handleSyncDeleteBatchFinished surroundings app result) := by
  unfold handleSyncDeleteBatchFinished
  simp only [hsync]
  split
  next => exact .unchanged hsync h
  next execution hexecution =>
    simp only [deleteBatchFinished, hexecution]
    apply Secure.dispatched
    exact h.resulted hexecution (.deleteBatchFinished result) sync.telemetry rfl rfl

end Handlers

end AbixioUi
