import AbixioUi.App.Authorisation

/-! # Deletes are confirmed

Every message keeps the screen secure, as long as no late planning result replaces
what a dialog shows. So a delete task is only handed out by a run whose plan was
reviewed in a dialog and confirmed there.
-/

namespace AbixioUi

open Foundation

/-! ## Planning results -/

/-- The screen takes the message without mixing it with a finished plan: a listing
arrives while no run plan is held, and a plan arrives while no dialog is open and
compares the listings that were scanned. -/
def SyncState.Accepts (sync : SyncState) : Message → Prop
  | .syncSourceEnumerated (.ok _) | .syncDestinationEnumerated (.ok _) => sync.runPlan = none
  | .syncPlanBuilt (.ok plan) =>
      sync.deleteConfirm = none ∧ ∃ source destination mode policy compareMode,
        plan = buildSyncPlan source destination mode policy compareMode ∧
          source.length = sync.telemetry.sourceScanned ∧
          destination.length = sync.telemetry.destinationScanned
  | _ => True

section Planning

variable {platform : Platform} {surroundings : Surroundings} {app : App} {approval : Approval}
  {sync : SyncState}

/-- Without a run plan there is no dialog, and scanning again changes nothing secured. -/
theorem Secure.rescanned (h : Secure platform approval sync) (hnone : sync.runPlan = none)
    (telemetry : SyncTelemetry) (source destination : Option (List SyncObject)) :
    Secure platform approval
      { sync with
        telemetry := telemetry
        sourceSnapshot := source
        destinationSnapshot := destination } where
  prepared := by
    intro runPlan hsome
    cases hnone.symm.trans hsome
  dialog := by
    intro dialog hdialog
    obtain ⟨opened, runPlan, _, _, _, -, hopened, hreview⟩ := h.dialog dialog hdialog
    cases hnone.symm.trans (hreview.runPlan_eq.trans hopened.runPlan_eq)
  run := by
    intro execution hexecution
    exact (h.run execution hexecution).imp_right fun happroves => happroves.same rfl rfl

theorem Secured.of_enumerates {result : App × List AppTask}
    (hscreen : ∀ after, result.1.sync = some after → Secure platform approval after)
    (htasks : ∀ task ∈ result.2, ∀ spec clients, task ≠ .runSync spec clients) :
    Secured platform approval result :=
  ⟨hscreen, fun spec clients hmem => absurd rfl (htasks _ hmem spec clients)⟩

theorem handleStartSyncPlan_secured :
    Secured platform approval (handleStartSyncPlan surroundings app) := by
  obtain ⟨hidle, htasks⟩ := handleStartSyncPlan_spec surroundings app
  exact .of_enumerates (fun after hafter => (hidle after hafter).secure)
    fun task htask => AppTask.not_runSync_of_enumerates (htasks task htask)

theorem handleSyncSourceEnumerated_secured (hsync : app.sync = some sync)
    (h : Secure platform approval sync) (result : Except String (List SyncObject))
    (haccepts : sync.Accepts (.syncSourceEnumerated result)) :
    Secured platform approval (handleSyncSourceEnumerated surroundings app result) := by
  cases result with
  | error error =>
      simp only [handleSyncSourceEnumerated, hsync]
      exact .quiet (h.same (planningFailed_sameWork sync error))
  | ok objects =>
      obtain ⟨telemetry, after, hafter, hsame, htasks⟩ :=
        handleSyncSourceEnumerated_spec surroundings app hsync objects
      refine .of_enumerates (fun after' hafter' => ?_)
        fun task htask => AppTask.not_runSync_of_enumerates (htasks task htask)
      obtain rfl : after = after' := Option.some.inj (hafter.symm.trans hafter')
      exact (h.rescanned haccepts telemetry (some objects) sync.destinationSnapshot).same hsame

theorem handleSyncDestinationEnumerated_secured (hsync : app.sync = some sync)
    (h : Secure platform approval sync) (result : Except String (List SyncObject))
    (haccepts : sync.Accepts (.syncDestinationEnumerated result)) :
    Secured platform approval (handleSyncDestinationEnumerated app result) := by
  cases result with
  | error error =>
      simp only [handleSyncDestinationEnumerated, hsync]
      exact .quiet (h.same (planningFailed_sameWork sync error))
  | ok objects =>
      obtain ⟨telemetry, snapshot, after, hafter, hsame, -, htasks⟩ :=
        handleSyncDestinationEnumerated_spec app hsync (.ok objects)
      refine .of_enumerates (fun after' hafter' => ?_) fun task htask spec clients => ?_
      · obtain rfl : after = after' := Option.some.inj (hafter.symm.trans hafter')
        exact (h.rescanned haccepts telemetry sync.sourceSnapshot snapshot).same hsame
      · obtain ⟨_, -, rfl⟩ := htasks task htask
        exact AppTask.noConfusion

theorem handleSyncPlanBuilt_secured (hsync : app.sync = some sync)
    (h : Secure platform approval sync) (result : Except String SyncPlan)
    (haccepts : sync.Accepts (.syncPlanBuilt result)) :
    Secured platform approval (handleSyncPlanBuilt platform app result) := by
  refine .of_enumerates (fun after hafter => ?_) (by simp [handleSyncPlanBuilt_tasks])
  cases result with
  | error error =>
      simp only [handleSyncPlanBuilt, App.withSync, hsync, Option.map_some,
        Option.some.injEq] at hafter
      subst hafter
      exact h.same ⟨⟨⟨rfl, rfl, rfl, rfl⟩, rfl, rfl, rfl⟩, rfl, rfl⟩
  | ok plan =>
      obtain ⟨hnone, source, destination, mode, policy, compareMode, hbuilt, hsource,
        hdestination⟩ := haccepts
      obtain ⟨runPlan, error, telemetry, hafter', hscanned, hscanned', hprepared⟩ :=
        handleSyncPlanBuilt_spec app platform hsync plan
      obtain rfl := Option.some.inj (hafter'.symm.trans hafter)
      refine ⟨fun prepared hsome => ?_, fun dialog hdialog => ?_, fun execution hexecution => ?_⟩
      · refine ⟨source, destination, plan, ⟨mode, policy, compareMode, hbuilt⟩, rfl, ?_,
          hscanned.trans hsource.symm, hscanned'.trans hdestination.symm⟩
        rw [← hprepared prepared hsome]
        exact prepareSyncRunPlan_planConfig platform rfl plan
      · cases hnone.symm.trans hdialog
      · exact (h.run execution hexecution).imp_right fun happroves => happroves.same rfl rfl

end Planning

/-! ## One message -/

section Update

variable {platform : Platform} {app : App} {approval : Approval} {sync : SyncState}
  {message : Message}

theorem not_starts_of_not_steersSync (sync : SyncState) (h : message.steersSync = false) :
    sync.opens message = false ∧ sync.starts message = false := by
  cases message with
  | startSyncCopy | startSync | confirmSyncDeleteRun => cases h
  | _ => exact ⟨rfl, rfl⟩

theorem KeepsOrDrops.secured {result : App × List AppTask} (hkeeps : KeepsOrDrops app result)
    (h : ∀ sync, app.sync = some sync → Secure platform approval sync) :
    Secured platform approval result := by
  refine .of_enumerates (fun after hafter => ?_)
    fun task htask => AppTask.not_runSync_of_syncs (hkeeps.tasks task htask)
  rcases hkeeps.sync after hafter with hidle | ⟨before, hbefore, hsame⟩
  · exact hidle.secure
  · exact (h before hbefore).same hsame

/-- Every message that the screen accepts keeps it secure. -/
theorem update_secured (surroundings : Surroundings) (hsync : app.sync = some sync)
    (h : Secure platform approval sync) (haccepts : sync.Accepts message) :
    Secured platform (approval.after sync message)
      (app.update platform surroundings message) := by
  have hall : ∀ sync', app.sync = some sync' → Secure platform approval sync' := by
    intro sync' hsync'
    obtain rfl : sync = sync' := Option.some.inj (hsync.symm.trans hsync')
    exact h
  cases hsteers : message.steersSync with
  | false =>
      obtain ⟨hopens, hstarts⟩ := not_starts_of_not_steersSync sync hsteers
      rw [Approval.after_eq hopens hstarts]
      exact (update_keepsOrDrops platform surroundings app hsteers).secured hall
  | true =>
      cases message with
      | startSyncPlan => exact handleStartSyncPlan_secured
      | syncSourceEnumerated result =>
          exact handleSyncSourceEnumerated_secured hsync h result haccepts
      | syncDestinationEnumerated result =>
          exact handleSyncDestinationEnumerated_secured hsync h result haccepts
      | syncPlanBuilt result => exact handleSyncPlanBuilt_secured hsync h result haccepts
      | startSyncCopy => exact handleStartSyncCopy_secured hsync h
      | startSync => exact handleStartSync_secured hsync h
      | cancelSyncDeleteConfirm =>
          rw [Approval.after_eq rfl rfl]
          simp only [App.update, handleCancelSyncDeleteConfirm, App.withSync, hsync,
            Option.map_some]
          exact .quiet h.dialogClosed
      | syncDeleteConfirmTextChanged value =>
          rw [Approval.after_eq rfl rfl]
          simp only [App.update, handleSyncDeleteConfirmTextChanged, App.withSync, hsync,
            Option.map_some]
          exact .quiet (h.dialogEdited fun _ => rfl)
      | confirmSyncDeleteRun => exact handleConfirmSyncDeleteRun_secured hsync h
      | syncCopyStepFinished result => exact handleSyncCopyStepFinished_secured hsync h result
      | syncDeleteBatchFinished result =>
          exact handleSyncDeleteBatchFinished_secured hsync h result
      | _ => cases hsteers

/-- Without a screen only a fresh one can be opened. -/
theorem update_secured_closed (surroundings : Surroundings) (hsync : app.sync = none) :
    Secured platform approval (app.update platform surroundings message) := by
  have hall : ∀ sync', app.sync = some sync' → Secure platform approval sync' := by
    intro sync' hsync'
    cases hsync.symm.trans hsync'
  have hquiet : Secured platform approval (app, []) :=
    ⟨hall, by simp⟩
  cases hsteers : message.steersSync with
  | false => exact (update_keepsOrDrops platform surroundings app hsteers).secured hall
  | true =>
      cases message with
      | startSyncPlan => exact handleStartSyncPlan_secured
      | syncSourceEnumerated result =>
          simpa [App.update, handleSyncSourceEnumerated, hsync] using hquiet
      | syncDestinationEnumerated result =>
          simpa [App.update, handleSyncDestinationEnumerated, hsync] using hquiet
      | syncPlanBuilt result =>
          exact ⟨by simp [App.update, handleSyncPlanBuilt, App.withSync, hsync], by
            simp [App.update, handleSyncPlanBuilt_tasks]⟩
      | startSyncCopy => simpa [App.update, handleStartSyncCopy, hsync] using hquiet
      | startSync => simpa [App.update, handleStartSync, hsync] using hquiet
      | cancelSyncDeleteConfirm =>
          exact ⟨by simp [App.update, handleCancelSyncDeleteConfirm, App.withSync, hsync],
            by simp [App.update, handleCancelSyncDeleteConfirm, App.withSync]⟩
      | syncDeleteConfirmTextChanged value =>
          exact ⟨by simp [App.update, handleSyncDeleteConfirmTextChanged, App.withSync, hsync],
            by simp [App.update, handleSyncDeleteConfirmTextChanged, App.withSync]⟩
      | confirmSyncDeleteRun =>
          simpa [App.update, handleConfirmSyncDeleteRun, hsync] using hquiet
      | syncCopyStepFinished result =>
          simpa [App.update, handleSyncCopyStepFinished, hsync] using hquiet
      | syncDeleteBatchFinished result =>
          simpa [App.update, handleSyncDeleteBatchFinished, hsync] using hquiet
      | _ => cases hsteers

end Update

/-! ## Runs -/

/-- The result of the request is no late one: a listing arrives while the screen holds
no run plan, a plan while no dialog is open and for the listings scanned last. -/
def Request.Timely (sync : SyncState) (replies : Replies) (request : Request) : Prop :=
  match request.task, replies.objects with
  | .enumerateSyncSource _ _, .ok _ => sync.runPlan = none
  | .enumerateSyncDestination _ _, .ok _ => sync.runPlan = none
  | .buildSyncPlan source destination _ _ _, _ =>
      sync.deleteConfirm = none ∧ source.length = sync.telemetry.sourceScanned ∧
        destination.length = sync.telemetry.destinationScanned
  | _, _ => True

/-- No late planning result lands on a finished plan. -/
def World.Timely (world : World) : WorldEvent → Prop
  | .deliver _ index replies =>
      match world.inFlight[index]?, world.app.sync with
      | some request, some sync => request.Timely sync replies
      | _, _ => True
  | _ => True

section Runs

variable {platform : Platform} {world : World} {event : WorldEvent}

theorem accepts_of_not_isResult (sync : SyncState) {message : Message}
    (h : message.isResult = false) : sync.Accepts message := by
  cases message with
  | syncSourceEnumerated _ | syncDestinationEnumerated _ | syncPlanBuilt _ => cases h
  | _ => trivial

theorem SyncRunResult.accepted (sync : SyncState) (result : SyncRunResult) :
    sync.Accepts result.message := by
  cases result <;> trivial

theorem Request.Timely.accepts {sync : SyncState} {replies : Replies} {request : Request}
    (h : request.Timely sync replies) {message : Message}
    (hmessage : request.task.message replies = some message) : sync.Accepts message := by
  unfold Request.Timely at h
  cases htask : request.task with
  | enumerateSyncSource params client | enumerateSyncDestination params client =>
      rw [htask] at h hmessage
      obtain rfl : _ = message := Option.some.inj hmessage
      cases hreply : replies.objects with
      | error error => trivial
      | ok objects =>
          rw [hreply] at h
          exact h
  | buildSyncPlan source destination mode policy compareMode =>
      rw [htask] at h hmessage
      obtain rfl : _ = message := Option.some.inj hmessage
      exact ⟨h.1, source, destination, mode, policy, compareMode, rfl, h.2⟩
  | runSync spec clients =>
      rw [htask] at hmessage
      obtain rfl : _ = message := Option.some.inj hmessage
      exact SyncRunResult.accepted sync _
  | fetchBuckets _ | fetchObjects _ _ _ =>
      rw [htask] at hmessage
      cases hmessage
  | _ =>
      rw [htask] at hmessage
      obtain rfl : _ = message := Option.some.inj hmessage
      trivial

/-- A timely event brings a message that the screen accepts. -/
theorem World.Timely.accepts (h : world.Timely event) {sync : SyncState}
    (hsync : world.app.sync = some sync) {surroundings : Surroundings} {message : Message}
    (hreceived : world.received event = some (surroundings, message)) :
    sync.Accepts message := by
  cases event with
  | browse _ => cases hreceived
  | user surroundings' message' =>
      unfold World.received at hreceived
      cases hresult : message'.isResult with
      | true => simp [hresult] at hreceived
      | false =>
          simp only [hresult, Bool.false_eq_true, if_false, Option.some.injEq,
            Prod.mk.injEq] at hreceived
          obtain ⟨-, rfl⟩ := hreceived
          exact accepts_of_not_isResult sync hresult
  | deliver surroundings' index replies =>
      cases hrequest : world.inFlight[index]? with
      | none => simp [World.received, hrequest] at hreceived
      | some request =>
          simp only [World.received, hrequest, Option.bind_some, Option.map_eq_some_iff,
            Prod.mk.injEq] at hreceived
          obtain ⟨message', hmessage, -, rfl⟩ := hreceived
          simp only [World.Timely, hrequest, hsync] at h
          exact h.accepts hmessage

/-- The screen, if open, is secure under the recorded approval. -/
def World.Secure (platform : Platform) (world : World) : Prop :=
  ∀ sync, world.app.sync = some sync → AbixioUi.Secure platform world.approval sync

theorem World.Secure.handle (h : world.Secure platform) (htimely : world.Timely event) :
    Secured platform (world.approved event) (world.handle platform event) := by
  cases hreceived : world.received event with
  | none =>
      have happroved : world.approved event = world.approval := by
        simp only [World.approved, hreceived]
        cases world.app.sync <;> rfl
      rw [happroved]
      rcases handle_of_not_received platform hreceived with heq | ⟨browsing, -, heq⟩
      · rw [heq]
        exact ⟨h, by simp⟩
      · rw [heq]
        exact .of_enumerates h (browse_not_runSync world.app browsing)
  | some received =>
      obtain ⟨surroundings, message⟩ := received
      rw [handle_of_received platform hreceived]
      cases hsync : world.app.sync with
      | none => exact update_secured_closed surroundings hsync
      | some sync =>
          have happroved : world.approved event = world.approval.after sync message := by
            simp only [World.approved, hsync, hreceived]
          rw [happroved]
          exact update_secured surroundings hsync (h sync hsync)
            (htimely.accepts hsync hreceived)

theorem World.Secure.step (h : world.Secure platform) (htimely : world.Timely event) :
    (world.step platform event).Secure platform :=
  (h.handle htimely).screen

end Runs

/-- In a run without late planning results every delete task is handed out by a run that
was started by a confirmation in sync mode: it executes the run plan of the dialog, whose
deletes and bytes the dialog showed and the guardrails in force admit, from a plan without
conflicts, and where the number of deletes asks for it the trimmed text was typed. -/
theorem run_deletes_authorised (platform : Platform) (connections : List Connection)
    (serverConfig : ServerConfig) (startup : StartupOptions) (events : List WorldEvent)
    (htimely : Along (World.step platform) World.Timely
      (World.start connections serverConfig startup) events) :
    ∀ t ∈ transitions (World.step platform) (World.start connections serverConfig startup)
        events,
      ∀ spec clients,
        AppTask.runSync spec clients ∈ (t.before.handle platform t.event).2 →
        spec.isDelete = true →
        ∃ sync execution opened confirmed source destination plan dialog,
          t.after.app.sync = some sync ∧ sync.execution = some execution ∧
          t.after.approval.confirmed = some (opened, confirmed) ∧
          Authorised platform opened confirmed execution.runPlan source destination plan
            dialog ∧
          sync.mode = .sync ∧ sync.deleteGuardrails = confirmed.deleteGuardrails := by
  intro t ht spec clients hspec hdelete
  have hstart : (World.start connections serverConfig startup).Secure platform := by
    intro sync hsync
    cases (start_sync connections serverConfig startup).symm.trans hsync
  obtain ⟨hsecure, htime, hafter⟩ := transitions_invariant (World.Secure platform)
    (fun _ _ h => h.step) hstart htimely ht
  obtain ⟨sync, execution, hsync, hexecution, opened, confirmed, source, destination, plan,
    dialog, hconfirmed, hauthorised, hmode, hguardrails⟩ :=
    (hsecure.handle htime).deletes spec clients hspec hdelete
  rw [hafter]
  exact ⟨sync, execution, opened, confirmed, source, destination, plan, dialog, hsync,
    hexecution, hconfirmed, hauthorised, hmode, hguardrails⟩

/-! ## A run that deletes the only object of the destination -/

def oneObjectListed : Replies :=
  { emptyReplies with
    objects := .ok
      [{ relativePath := "x".toList
         size := 5
         modified := none
         etag := none
         isDirMarker := false }] }

/-- Plan a sync from the empty bucket `a` to bucket `b`, start it and type in the dialog. -/
def dialogTyped (text : Str) : List WorldEvent :=
  [Message.openSync, .syncModeChanged .sync, .syncSourceBucketChanged "a".toList,
      .syncDestinationBucketChanged "b".toList, .startSyncPlan].map (WorldEvent.user calm) ++
    [.deliver calm 0 emptyReplies, .deliver calm 0 oneObjectListed,
      .deliver calm 0 emptyReplies] ++
    [Message.startSync, .syncDeleteConfirmTextChanged text].map (WorldEvent.user calm)

/-- The screen before the confirmation of the padded text. -/
def paddedDialog : World :=
  run (World.step .unix) unconnected (dialogTyped " delete 1 ".toList)

def confirmation : WorldEvent := .user calm .confirmSyncDeleteRun

theorem paddedDialog_hands_out_delete :
    ∃ spec clients, AppTask.runSync spec clients ∈ (paddedDialog.handle .unix confirmation).2 ∧
      spec.isDelete = true := by
  have hany : (paddedDialog.handle .unix confirmation).2.any (fun task =>
      match task with
      | .runSync spec _ => spec.isDelete
      | _ => false) = true := by
    decide
  obtain ⟨task, htask, hdelete⟩ := List.any_eq_true.mp hany
  cases task with
  | runSync spec clients => exact ⟨spec, clients, htask, hdelete⟩
  | _ => cases hdelete

theorem run_deletes_authorised_padded :
    ∃ sync execution opened confirmed source destination plan dialog,
      (paddedDialog.step .unix confirmation).app.sync = some sync ∧
      sync.execution = some execution ∧
      (paddedDialog.step .unix confirmation).approval.confirmed = some (opened, confirmed) ∧
      Authorised .unix opened confirmed execution.runPlan source destination plan dialog ∧
      sync.mode = .sync ∧ sync.deleteGuardrails = confirmed.deleteGuardrails := by
  obtain ⟨spec, clients, hspec, hdelete⟩ := paddedDialog_hands_out_delete
  exact run_deletes_authorised .unix [] noServer ⟨none, none⟩
    (dialogTyped " delete 1 ".toList ++ [confirmation])
    ⟨trivial, trivial, trivial, trivial, trivial, rfl, rfl, ⟨rfl, rfl, rfl⟩, trivial, trivial,
      trivial, trivial⟩
    ⟨paddedDialog, confirmation, paddedDialog.step .unix confirmation⟩
    (transition_mem unconnected _ confirmation []) spec clients hspec hdelete

/-- Blanks around the typed text are ignored, so it need not be exactly the one asked for. -/
theorem padded_text_confirms :
    ¬ ∀ t ∈ transitions (World.step .unix) unconnected
        (dialogTyped " delete 1 ".toList ++ [confirmation]),
      ∀ spec clients, AppTask.runSync spec clients ∈ (t.before.handle .unix t.event).2 →
        spec.isDelete = true → ∀ opened confirmed dialog,
          t.after.approval.confirmed = some (opened, confirmed) →
          confirmed.deleteConfirm = some dialog → dialog.thresholdReason.isSome = true →
          dialog.confirmText = "delete ".toList ++ natToStr dialog.plannedDeletes := by
  intro hexact
  obtain ⟨spec, clients, hspec, hdelete⟩ := paddedDialog_hands_out_delete
  have htyped := hexact ⟨paddedDialog, confirmation, paddedDialog.step .unix confirmation⟩
    (transition_mem unconnected _ confirmation []) spec clients hspec hdelete
  have hfacts : (paddedDialog.step .unix confirmation).approval.confirmed.bind (fun screens =>
      screens.2.deleteConfirm.map fun dialog =>
        (dialog.thresholdReason.isSome, dialog.confirmText, dialog.plannedDeletes)) =
      some (true, " delete 1 ".toList, 1) := by
    decide
  obtain ⟨⟨opened, confirmed⟩, hconfirmed, hdialog⟩ := Option.bind_eq_some_iff.mp hfacts
  obtain ⟨dialog, hsome, hfields⟩ := Option.map_eq_some_iff.mp hdialog
  simp only [Prod.mk.injEq] at hfields
  obtain ⟨hreason, htext, hplanned⟩ := hfields
  have heq := htyped opened confirmed dialog hconfirmed hsome hreason
  rw [htext, hplanned] at heq
  revert heq
  decide

end AbixioUi
