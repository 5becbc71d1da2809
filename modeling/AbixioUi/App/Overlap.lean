import AbixioUi.App.Confirmed
import AbixioUi.App.Provenance

/-! # Overlapping runs

The result of a sync step does not say which run the step belongs to. A world that
also counts the runs tells the late results, which arrive after another run has
taken the screen; the results here say when these leave the new run alone.
-/

namespace AbixioUi

open Foundation

/-! ## Counting answers -/

/-- How many results an execution has counted. -/
def SyncExecutionState.answers (e : SyncExecutionState) : Nat :=
  e.completedTransfers + e.failedTransfers + e.completedDeletes + e.failedDeletes

/-- A dispatch counts no result. -/
theorem dispatchSyncExecution_answers {sync : SyncState} {e : SyncExecutionState}
    (h : sync.execution = some e) :
    ∃ next, (dispatchSyncExecution sync).1.execution = some next ∧ next.answers = e.answers := by
  obtain ⟨next, hd⟩ := dispatchSyncExecution_spec h
  have hsame := hd.sameCounters
  refine ⟨next, hd.execution_eq, ?_⟩
  rw [SyncExecutionState.answers, SyncExecutionState.answers, hsame.completedTransfers_eq,
    hsame.failedTransfers_eq, hsame.completedDeletes_eq, hsame.failedDeletes_eq]

/-- A task that stands for at least one item, as every handed out task does. -/
def PendingSyncTask.Filled (spec : PendingSyncTask) : Prop :=
  spec.isDelete = true → spec.deleteTargets ≠ []

/-- A result is always counted. -/
theorem resultHandled_answers (e : SyncExecutionState) (ignoreErrors : Bool)
    {spec : PendingSyncTask} (hfilled : spec.Filled) (answer : Except String Unit) :
    e.answers < (e.resultHandled ignoreErrors (spec.intoTask answer)).answers := by
  cases spec with
  | transfer item =>
      cases answer <;>
        simp only [SyncExecutionState.answers, SyncExecutionState.resultHandled,
          PendingSyncTask.intoTask, Except.map, SyncExecutionState.transferFinished] <;>
        omega
  | deleteRemote connectionId bucket keys bytes label =>
      have hkeys : keys ≠ [] := by
        have htargets := hfilled rfl
        simpa [PendingSyncTask.deleteTargets] using htargets
      have hlen : 0 < keys.length := List.length_pos_iff.mpr hkeys
      cases answer <;>
        simp only [SyncExecutionState.answers, SyncExecutionState.resultHandled,
          PendingSyncTask.intoTask, Except.map, SyncExecutionState.deleteFinished] <;>
        omega
  | deleteLocal path bytes label =>
      cases answer <;>
        simp only [SyncExecutionState.answers, SyncExecutionState.resultHandled,
          PendingSyncTask.intoTask, Except.map, SyncExecutionState.deleteFinished] <;>
        omega

/-! ## Results at the application -/

/-- The run on the screen. -/
def App.execution (app : App) : Option SyncExecutionState := app.sync.bind (·.execution)

section Results

variable (platform : Platform) (surroundings : Surroundings) {app : App}

/-- A result that finds no run changes nothing. -/
theorem update_result_idle (h : app.execution = none) (result : SyncRunResult) :
    app.update platform surroundings result.message = (app, []) := by
  cases hsync : app.sync with
  | none =>
      cases result <;> simp [SyncRunResult.message, App.update, handleSyncCopyStepFinished,
        handleSyncDeleteBatchFinished, hsync]
  | some sync =>
      have hexecution : sync.execution = none := by simpa [App.execution, hsync] using h
      cases result <;> simp [SyncRunResult.message, App.update, handleSyncCopyStepFinished,
        handleSyncDeleteBatchFinished, hsync, hexecution]

/-- A result that finds a run is handled by it. -/
theorem update_result_run {e : SyncExecutionState} (h : app.execution = some e)
    (result : SyncRunResult) :
    ∃ next ignoreErrors,
      (app.update platform surroundings result.message).1.execution = some next ∧
      next.answers = (e.resultHandled ignoreErrors result).answers := by
  obtain ⟨sync, hsync, hexecution⟩ := Option.bind_eq_some_iff.mp h
  obtain ⟨telemetry, hhandle⟩ := handleRunResult_eq hexecution result
  have hscreen : (app.update platform surroundings result.message).1.sync =
      some (handleRunResult sync result).1 := by
    cases result <;> simp [SyncRunResult.message, App.update, handleSyncCopyStepFinished,
      handleSyncDeleteBatchFinished, hsync, hexecution, App.dispatched, handleRunResult]
  have hloaded : ({ sync with
      execution := some (e.resultHandled sync.deleteGuardrails.ignoreErrors result)
      telemetry := telemetry } : SyncState).execution =
        some (e.resultHandled sync.deleteGuardrails.ignoreErrors result) := rfl
  obtain ⟨next, hnext, hanswers⟩ := dispatchSyncExecution_answers hloaded
  refine ⟨next, sync.deleteGuardrails.ignoreErrors, ?_, hanswers⟩
  rw [App.execution, hscreen, hhandle]
  exact hnext

end Results

/-! ## Where runs come from -/

/-- Whether the message puts a new run on this screen. -/
def SyncState.replacesRun (sync : SyncState) (message : Message) : Bool :=
  sync.starts message && sync.runPlan.isSome

section Sources

variable (platform : Platform) (surroundings : Surroundings) {app : App} {message : Message}

/-- A message outside of runs keeps the run on the screen or drops it. -/
theorem KeepsOrDrops.execution {result : App × List AppTask} (h : KeepsOrDrops app result)
    {e : SyncExecutionState} (he : result.1.execution = some e) : app.execution = some e := by
  obtain ⟨after, hafter, hexecution⟩ := Option.bind_eq_some_iff.mp he
  rcases h.sync after hafter with hidle | ⟨before, hbefore, hsame⟩
  · rw [hidle.execution_eq] at hexecution
    cases hexecution
  · rw [App.execution, hbefore, Option.bind_some, ← hsame.execution_eq, hexecution]

/-- A planning message starts no sync step, and keeps the run on the screen or drops it. -/
theorem update_plans_spec (hplans : message.plans = true) :
    (∀ task ∈ (app.update platform surroundings message).2, ∀ spec clients,
        task ≠ .runSync spec clients) ∧
      ∀ e, (app.update platform surroundings message).1.execution = some e →
        app.execution = some e := by
  have hscreen : ∀ {sync after : SyncState} {result : App × List AppTask},
      app.sync = some sync → result.1.sync = some after → after.execution = sync.execution →
        ∀ e, result.1.execution = some e → app.execution = some e := by
    intro sync after result hsync hafter hsame e he
    rw [App.execution, hafter, Option.bind_some, hsame] at he
    rw [App.execution, hsync, Option.bind_some, he]
  cases message with
  | startSyncPlan =>
      obtain ⟨hidle, htasks⟩ := handleStartSyncPlan_spec surroundings app
      refine ⟨fun task htask => AppTask.not_runSync_of_enumerates (htasks task htask), ?_⟩
      intro e he
      obtain ⟨after, hafter, hexecution⟩ := Option.bind_eq_some_iff.mp he
      rw [(hidle after hafter).execution_eq] at hexecution
      cases hexecution
  | syncSourceEnumerated result =>
      cases hsync : app.sync with
      | none => simp [App.update, handleSyncSourceEnumerated, hsync]
      | some sync =>
          cases result with
          | error error =>
              refine ⟨by simp [App.update, handleSyncSourceEnumerated, hsync], ?_⟩
              refine @hscreen sync (sync.planningFailed error) _ hsync ?_ rfl
              simp [App.update, handleSyncSourceEnumerated, hsync]
          | ok objects =>
              obtain ⟨telemetry, after, hafter, hsame, htasks⟩ :=
                handleSyncSourceEnumerated_spec surroundings app hsync objects
              exact ⟨fun task htask => AppTask.not_runSync_of_enumerates (htasks task htask),
                hscreen hsync hafter hsame.execution_eq⟩
  | syncDestinationEnumerated result =>
      cases hsync : app.sync with
      | none => simp [App.update, handleSyncDestinationEnumerated, hsync]
      | some sync =>
          obtain ⟨telemetry, snapshot, after, hafter, hsame, -, htasks⟩ :=
            handleSyncDestinationEnumerated_spec app hsync result
          refine ⟨fun task htask spec clients heq => ?_,
            hscreen hsync hafter hsame.execution_eq⟩
          obtain ⟨objects, -, hplan⟩ := htasks task htask
          cases hplan.symm.trans heq
  | syncPlanBuilt result =>
      refine ⟨by simp [App.update, handleSyncPlanBuilt_tasks], ?_⟩
      cases hsync : app.sync with
      | none => simp [App.update, handleSyncPlanBuilt, App.withSync, App.execution, hsync]
      | some sync =>
          cases result with
          | error error =>
              intro e he
              simpa [App.update, handleSyncPlanBuilt, App.withSync, App.execution, hsync] using he
          | ok plan =>
              obtain ⟨runPlan, error, telemetry, hafter, -⟩ :=
                handleSyncPlanBuilt_spec app platform hsync plan
              exact hscreen hsync hafter rfl
  | _ => cases hplans

theorem handleStartSyncCopy_born (h : app.execution = none)
    (hborn : (handleStartSyncCopy surroundings app).1.execution ≠ none) :
    ∃ sync, app.sync = some sync ∧ sync.replacesRun .startSyncCopy = true := by
  unfold handleStartSyncCopy at hborn
  cases hsync : app.sync with
  | none => exact absurd h (by simpa [hsync] using hborn)
  | some sync =>
      have hnone : sync.execution = none := by simpa [App.execution, hsync] using h
      refine ⟨sync, rfl, ?_⟩
      simp only [hsync] at hborn
      split at hborn
      next => exact absurd h hborn
      next hmode =>
        cases hplan : sync.runPlan with
        | none => simp [hplan, App.execution, hnone] at hborn
        | some runPlan =>
            by_cases hnil : runPlan.transfers = []
            · simp [hplan, hnil, App.execution, hnone] at hborn
            · have hcopy : sync.mode = .copy := not_not.mp hmode
              simp [SyncState.replacesRun, SyncState.starts, hcopy, hplan, hnil]

theorem handleStartSync_born (h : app.execution = none)
    (hborn : (handleStartSync surroundings app).1.execution ≠ none) :
    ∃ sync, app.sync = some sync ∧ sync.replacesRun .startSync = true := by
  unfold handleStartSync at hborn
  cases hsync : app.sync with
  | none => exact absurd h (by simpa [hsync] using hborn)
  | some sync =>
      have hnone : sync.execution = none := by simpa [App.execution, hsync] using h
      refine ⟨sync, rfl, ?_⟩
      simp only [hsync] at hborn
      split at hborn
      next => exact absurd h hborn
      next hmode =>
        cases hstart : sync.startable with
        | error error => simp [hstart, App.execution, hnone] at hborn
        | ok runPlan =>
            by_cases hnil : runPlan.deletes = []
            · have hsync : sync.mode = .sync := not_not.mp hmode
              have hplan := (startable_ok hstart).1
              simp [SyncState.replacesRun, SyncState.starts, hsync, hstart, hnil, hplan]
            · simp [hstart, hnil, App.execution, hnone] at hborn

theorem handleConfirmSyncDeleteRun_born (h : app.execution = none)
    (hborn : (handleConfirmSyncDeleteRun surroundings app).1.execution ≠ none) :
    ∃ sync, app.sync = some sync ∧ sync.replacesRun .confirmSyncDeleteRun = true := by
  unfold handleConfirmSyncDeleteRun at hborn
  cases hsync : app.sync with
  | none => exact absurd h (by simpa [hsync] using hborn)
  | some sync =>
      have hnone : sync.execution = none := by simpa [App.execution, hsync] using h
      refine ⟨sync, rfl, ?_⟩
      simp only [hsync] at hborn
      cases hdialog : sync.deleteConfirm with
      | none => exact absurd h (by simpa [hdialog] using hborn)
      | some confirm =>
          by_cases htyped : confirm.typedRequired = true ∧
              trim confirm.confirmText ≠ confirm.expected
          · simp only [hdialog, if_pos htyped] at hborn
            simp [App.execution, hnone] at hborn
          · cases hplan : sync.runPlan with
            | none =>
                -- without a run plan nothing is started, and the dispatch finds no run
                simp only [hdialog, if_neg htyped] at hborn
                simp [startSyncExecution, dispatchSyncExecution, App.dispatched, App.execution,
                  hplan, hnone] at hborn
            | some runPlan =>
                have hconfirmed : confirm.typedRequired = false ∨
                    trim confirm.confirmText = confirm.expected := by
                  rw [← Bool.not_eq_true, ← not_not (a := trim _ = _), ← not_and_or]
                  exact htyped
                simpa [SyncState.replacesRun, SyncState.starts, hdialog, hplan] using hconfirmed

/-- A run appears on the screen only by a message that starts it. -/
theorem update_born (h : app.execution = none)
    (hborn : (app.update platform surroundings message).1.execution ≠ none) :
    ∃ sync, app.sync = some sync ∧ sync.replacesRun message = true := by
  cases hsteers : message.steersSync with
  | false =>
      obtain ⟨e, he⟩ := Option.ne_none_iff_exists'.mp hborn
      have hkept := (update_keepsOrDrops platform surroundings app hsteers).execution he
      cases h.symm.trans hkept
  | true =>
      cases hplans : message.plans with
      | true =>
          obtain ⟨e, he⟩ := Option.ne_none_iff_exists'.mp hborn
          have hkept := (update_plans_spec platform surroundings hplans).2 e he
          cases h.symm.trans hkept
      | false =>
          cases message with
          | startSyncCopy => exact handleStartSyncCopy_born surroundings h hborn
          | startSync => exact handleStartSync_born surroundings h hborn
          | confirmSyncDeleteRun => exact handleConfirmSyncDeleteRun_born surroundings h hborn
          | syncCopyStepFinished result =>
              have hidle :
                  app.update platform surroundings (.syncCopyStepFinished result) = (app, []) :=
                update_result_idle platform surroundings h (.copyStepFinished result)
              rw [hidle] at hborn
              exact absurd h hborn
          | syncDeleteBatchFinished result =>
              have hidle :
                  app.update platform surroundings (.syncDeleteBatchFinished result) = (app, []) :=
                update_result_idle platform surroundings h (.deleteBatchFinished result)
              rw [hidle] at hborn
              exact absurd h hborn
          | cancelSyncDeleteConfirm =>
              refine absurd ?_ hborn
              cases hsync : app.sync with
              | none => simp [App.update, handleCancelSyncDeleteConfirm, App.withSync,
                  App.execution, hsync]
              | some sync => simpa [App.update, handleCancelSyncDeleteConfirm, App.withSync,
                  App.execution, hsync] using h
          | syncDeleteConfirmTextChanged value =>
              refine absurd ?_ hborn
              cases hsync : app.sync with
              | none => simp [App.update, handleSyncDeleteConfirmTextChanged, App.withSync,
                  App.execution, hsync]
              | some sync => simpa [App.update, handleSyncDeleteConfirmTextChanged, App.withSync,
                  App.execution, hsync] using h
          | startSyncPlan | syncSourceEnumerated _ | syncDestinationEnumerated _
          | syncPlanBuilt _ => cases hplans
          | _ => cases hsteers

end Sources

/-! ## Steps in flight -/

section Steps

variable (platform : Platform) (surroundings : Surroundings) (app : App)

/-- The sync steps among the tasks stand for at least one item each. -/
def FilledSteps (tasks : List AppTask) : Prop :=
  ∀ spec clients, AppTask.runSync spec clients ∈ tasks → spec.Filled

theorem filledSteps_of_not_runSync {tasks : List AppTask}
    (h : ∀ task ∈ tasks, ∀ spec clients, task ≠ .runSync spec clients) : FilledSteps tasks :=
  fun spec clients hmem => absurd rfl (h _ hmem spec clients)

theorem dispatched_filledSteps (sync : SyncState) :
    FilledSteps (app.dispatched surroundings (dispatchSyncExecution sync)).2 := by
  intro spec clients hmem
  obtain ⟨spec', hspec, heq⟩ := List.mem_map.mp hmem
  obtain rfl : spec' = spec := (AppTask.runSync.inj heq).1
  cases hexecution : sync.execution with
  | none => simp [dispatchSyncExecution, hexecution] at hspec
  | some e =>
      obtain ⟨next, hd⟩ := dispatchSyncExecution_spec hexecution
      obtain ⟨n, m, hpulled, -⟩ := hd.pulled
      exact hpulled.handsOut.targets_ne spec' hspec

theorem update_filledSteps (message : Message) :
    FilledSteps (app.update platform surroundings message).2 := by
  cases hsteers : message.steersSync with
  | false =>
      have hkeeps := update_keepsOrDrops platform surroundings app hsteers
      exact filledSteps_of_not_runSync fun task htask =>
        AppTask.not_runSync_of_syncs (hkeeps.tasks task htask)
  | true =>
      cases hplans : message.plans with
      | true =>
          exact filledSteps_of_not_runSync (update_plans_spec platform surroundings hplans).1
      | false =>
          have houtcome := update_outcome platform surroundings app hsteers hplans
          generalize app.update platform surroundings message = result at houtcome ⊢
          cases houtcome with
          | unchanged => exact fun spec clients hmem => absurd hmem List.not_mem_nil
          | noted hsync hreview hexecution =>
              exact fun spec clients hmem => absurd hmem List.not_mem_nil
          | dispatched error hsync hreview hrun => exact dispatched_filledSteps surroundings _ _

end Steps

/-! ## Tracked worlds -/

/-- A world that also counts the runs, and records for each task in flight the run that
was the last one when the task was handed out. -/
structure TrackedWorld where
  world : World
  runs : Nat
  owners : List Nat

def World.execution (world : World) : Option SyncExecutionState := world.app.execution

/-- Whether the event puts a new run on the screen. -/
def World.replacesRun (world : World) (event : WorldEvent) : Bool :=
  match world.app.sync, world.received event with
  | some sync, some (_, message) => sync.replacesRun message
  | _, _ => false

def TrackedWorld.start (connections : List Connection) (serverConfig : ServerConfig)
    (startup : StartupOptions) : TrackedWorld :=
  let world := World.start connections serverConfig startup
  { world := world, runs := 0, owners := world.inFlight.map fun _ => 0 }

def TrackedWorld.step (platform : Platform) (tracked : TrackedWorld) (event : WorldEvent) :
    TrackedWorld :=
  let runs := if tracked.world.replacesRun event then tracked.runs + 1 else tracked.runs
  let kept := match event with
    | .deliver _ index _ => tracked.owners.eraseIdx index
    | _ => tracked.owners
  { world := tracked.world.step platform event
    runs := runs
    owners := kept ++ (tracked.world.handle platform event).2.map fun _ => runs }

/-- Whether the event brings the result of a sync step of an earlier run. -/
def TrackedWorld.late (tracked : TrackedWorld) : WorldEvent → Bool
  | .deliver _ index _ =>
      match tracked.world.inFlight[index]?, tracked.owners[index]? with
      | some ⟨.runSync _ _, _⟩, some owner => decide (owner ≠ tracked.runs)
      | _, _ => false
  | _ => false

/-- A late result finds no run on the screen. -/
def TrackedWorld.Apart (tracked : TrackedWorld) (event : WorldEvent) : Prop :=
  tracked.late event = true → tracked.world.execution = none

/-- A late result changes nothing about the run on the screen and hands nothing out. -/
def Undisturbed (platform : Platform) (t : Transition TrackedWorld WorldEvent) : Prop :=
  t.before.late t.event = true →
    t.after.world.execution = t.before.world.execution ∧
      (t.before.world.handle platform t.event).2 = []

/-- The sync steps in flight stand for at least one item each. -/
def World.StepsFilled (world : World) : Prop :=
  FilledSteps (world.inFlight.map (·.task))

section Tracked

variable {platform : Platform} {world : World} {tracked : TrackedWorld}

theorem handle_filledSteps (event : WorldEvent) :
    FilledSteps (world.handle platform event).2 := by
  cases hreceived : world.received event with
  | none =>
      rcases handle_of_not_received platform hreceived with heq | ⟨browsing, -, heq⟩
      · rw [heq]
        exact fun spec clients hmem => absurd hmem List.not_mem_nil
      · rw [heq]
        exact filledSteps_of_not_runSync (browse_not_runSync world.app browsing)
  | some received =>
      rw [handle_of_received platform hreceived]
      exact update_filledSteps platform received.1 world.app received.2

theorem World.StepsFilled.step (h : world.StepsFilled) (event : WorldEvent) :
    (world.step platform event).StepsFilled := by
  intro spec clients hmem
  obtain ⟨request, hrequest, htask⟩ := List.mem_map.mp hmem
  rcases mem_inFlight_step hrequest with hold | ⟨task, hnew, rfl⟩
  · exact h spec clients (List.mem_map.mpr ⟨request, hold, htask⟩)
  · obtain rfl : task = .runSync spec clients := htask
    exact handle_filledSteps event spec clients hnew

/-- The sync step whose result a late event brings. -/
theorem late_deliver {event : WorldEvent} (h : tracked.late event = true) :
    ∃ surroundings index replies request spec clients,
      event = .deliver surroundings index replies ∧
      tracked.world.inFlight[index]? = some request ∧ request.task = .runSync spec clients := by
  cases event with
  | user _ _ | browse _ => cases h
  | deliver surroundings index replies =>
      simp only [TrackedWorld.late] at h
      split at h
      next spec clients config owner hrequest howner =>
        exact ⟨surroundings, index, replies, _, spec, clients, rfl, hrequest, rfl⟩
      next => cases h

/-- A single event keeps the run on the screen undisturbed exactly if a late result
finds no run there. -/
theorem undisturbed_iff_apart (hfilled : tracked.world.StepsFilled) (event : WorldEvent) :
    Undisturbed platform ⟨tracked, event, tracked.step platform event⟩ ↔
      tracked.Apart event := by
  by_cases hlate : tracked.late event = true
  · obtain ⟨surroundings, index, replies, request, spec, clients, rfl, hrequest, htask⟩ :=
      late_deliver hlate
    have hhandle := handle_deliver platform surroundings replies hrequest
      (by rw [htask]; rfl)
    have hmem : AppTask.runSync spec clients ∈ tracked.world.inFlight.map (·.task) :=
      List.mem_map.mpr ⟨request, List.mem_of_getElem? hrequest, htask⟩
    cases hexecution : tracked.world.execution with
    | none =>
        have hidle := update_result_idle platform surroundings hexecution
          (spec.intoTask (clients.bind fun _ => replies.done))
        refine iff_of_true (fun _ => ⟨?_, ?_⟩) fun _ => hexecution
        · show (tracked.world.handle platform _).1.execution = _
          rw [hhandle, hidle]
          rfl
        · rw [hhandle, hidle]
    | some e =>
        obtain ⟨next, ignoreErrors, hnext, hanswers⟩ := update_result_run platform surroundings
          hexecution (spec.intoTask (clients.bind fun _ => replies.done))
        have hcounted := resultHandled_answers e ignoreErrors (hfilled spec clients hmem)
          (clients.bind fun _ => replies.done)
        refine iff_of_false (fun hundisturbed => ?_) fun happart => ?_
        · have hsame : (tracked.world.handle platform _).1.execution = _ := (hundisturbed hlate).1
          rw [hhandle, hnext, hexecution] at hsame
          obtain rfl : next = e := Option.some.inj hsame
          omega
        · cases hexecution.symm.trans (happart hlate)
  · exact iff_of_true (fun h => absurd h hlate) fun h => absurd h hlate

theorem TrackedWorld.start_stepsFilled (connections : List Connection)
    (serverConfig : ServerConfig) (startup : StartupOptions) :
    (TrackedWorld.start connections serverConfig startup).world.StepsFilled := by
  intro spec clients hmem
  obtain ⟨request, hrequest, htask⟩ := List.mem_map.mp hmem
  obtain ⟨client, hfetch⟩ := mem_inFlight_start hrequest
  cases hfetch.symm.trans htask

end Tracked

/-- Late results leave the run on the screen alone exactly if none of them finds a run
there; and a run comes to the screen only by an event that is counted. -/
theorem runs_undisturbed_iff_apart (platform : Platform) (connections : List Connection)
    (serverConfig : ServerConfig) (startup : StartupOptions) (events : List WorldEvent) :
    ((∀ t ∈ transitions (TrackedWorld.step platform)
          (TrackedWorld.start connections serverConfig startup) events,
        Undisturbed platform t) ↔
      Along (TrackedWorld.step platform) TrackedWorld.Apart
        (TrackedWorld.start connections serverConfig startup) events) ∧
    ∀ t ∈ transitions (TrackedWorld.step platform)
        (TrackedWorld.start connections serverConfig startup) events,
      t.before.world.execution = none → t.after.world.execution ≠ none →
        t.after.runs = t.before.runs + 1 := by
  have hfilled : ∀ t ∈ transitions (TrackedWorld.step platform)
      (TrackedWorld.start connections serverConfig startup) events,
      t.before.world.StepsFilled ∧ t.after = t.before.step platform t.event := by
    intro t ht
    obtain ⟨hbefore, -, hafter⟩ := transitions_invariant
      (fun tracked : TrackedWorld => tracked.world.StepsFilled)
      (fun _ event h _ => h.step event)
      (TrackedWorld.start_stepsFilled connections serverConfig startup) (along_true _ events) ht
    exact ⟨hbefore, hafter⟩
  constructor
  · rw [along_iff_transitions]
    refine forall₂_congr fun t ht => ?_
    obtain ⟨hbefore, hafter⟩ := hfilled t ht
    have hsingle := @undisturbed_iff_apart platform t.before hbefore t.event
    rwa [← hafter] at hsingle
  · intro t ht hnone hborn
    obtain ⟨-, hafter⟩ := hfilled t ht
    rw [hafter] at hborn ⊢
    have hcounted : t.before.world.replacesRun t.event = true := by
      cases hreceived : t.before.world.received t.event with
      | none =>
          exfalso
          apply hborn
          show (t.before.world.handle platform t.event).1.execution = none
          rcases handle_of_not_received platform hreceived with heq | ⟨browsing, -, heq⟩ <;>
            · rw [heq]
              exact hnone
      | some received =>
          have hupdate : (t.before.world.app.update platform received.1 received.2).1.execution ≠
              none := by
            rw [← handle_of_received platform hreceived]
            exact hborn
          obtain ⟨sync, hsync, hstarts⟩ := update_born platform received.1 hnone hupdate
          simpa [World.replacesRun, hsync, hreceived] using hstarts
    simp [TrackedWorld.step, hcounted]

/-! ## A result of the copy before -/

/-- Plan on the open screen behind `older` tasks in flight, then start the copy. -/
def planAndCopy (older : Nat) : List WorldEvent :=
  [.user calm .startSyncPlan, .deliver calm older oneObjectListed,
    .deliver calm older emptyReplies, .deliver calm older emptyReplies,
    .user calm .startSyncCopy]

/-- Copy, plan again while the copy is in flight, and copy again. -/
def copiedTwice : List WorldEvent :=
  [Message.openSync, .syncModeChanged .copy, .syncSourceBucketChanged "a".toList,
      .syncDestinationBucketChanged "b".toList].map (WorldEvent.user calm) ++
    planAndCopy 0 ++ planAndCopy 1

def copyingTwice : TrackedWorld :=
  run (TrackedWorld.step .unix) (TrackedWorld.start [] noServer ⟨none, none⟩) copiedTwice

/-- The result of the first copy is counted by the second. -/
theorem late_result_disturbs :
    ¬ ∀ (platform : Platform) (connections : List Connection) (serverConfig : ServerConfig)
      (startup : StartupOptions) (events : List WorldEvent),
      ∀ t ∈ transitions (TrackedWorld.step platform)
          (TrackedWorld.start connections serverConfig startup) events,
        Undisturbed platform t := by
  intro h
  have hundisturbed := h .unix [] noServer ⟨none, none⟩
    (copiedTwice ++ [.deliver calm 0 emptyReplies])
    ⟨copyingTwice, .deliver calm 0 emptyReplies, _⟩
    (transition_mem _ copiedTwice (.deliver calm 0 emptyReplies) [])
  have hlate : copyingTwice.late (.deliver calm 0 emptyReplies) = true := by decide
  have hsame := congrArg (Option.map (·.completedTransfers)) (hundisturbed hlate).1
  have hbefore : copyingTwice.world.execution.map (·.completedTransfers) = some 0 := by decide
  have hafter : (copyingTwice.step .unix (.deliver calm 0 emptyReplies)).world.execution.map
      (·.completedTransfers) = some 1 := by decide
  rw [show Option.map (·.completedTransfers) copyingTwice.world.execution = _ from hbefore]
    at hsame
  cases hafter.symm.trans hsame

end AbixioUi
