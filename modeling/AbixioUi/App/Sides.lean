import AbixioUi.App.Authorisation

/-! # The two sides of a sync run

A run plan stores the connection ids of the screen it was prepared on, and every edit
of the screen drops the run. So the steps of a sync run only use the two connections
the screen still names.
-/

namespace AbixioUi

open Foundation

/-! ## Connection ids -/

def TransferEndpoint.connectionIds : TransferEndpoint → List Str
  | .s3 connectionId _ _ => [connectionId]
  | .local _ => []

def SyncRunItem.connectionIds (item : SyncRunItem) : List Str :=
  item.source.connectionIds ++ item.destination.connectionIds

def SyncRunPlan.connectionIds (runPlan : SyncRunPlan) : List Str :=
  runPlan.transfers.flatMap (·.connectionIds) ++
    runPlan.deletes.flatMap (·.destination.connectionIds)

def PendingSyncTask.connectionIds : PendingSyncTask → List Str
  | .transfer item => item.connectionIds
  | .deleteRemote connectionId _ _ _ _ => [connectionId]
  | .deleteLocal _ _ _ => []

/-- Every id is one of the two the screen names. -/
def SyncState.Names (sync : SyncState) (connectionIds : List Str) : Prop :=
  ∀ connectionId ∈ connectionIds,
    connectionId = sync.sourceConnectionId ∨ connectionId = sync.destinationConnectionId

theorem SyncState.SamePlan.names {before after : SyncState} {connectionIds : List Str}
    (hsame : before.SamePlan after) (h : before.Names connectionIds) :
    after.Names connectionIds := by
  have hsource : after.sourceConnectionId = before.sourceConnectionId :=
    congrArg (·.source.connectionId) hsame.config_eq
  have hdestination : after.destinationConnectionId = before.destinationConnectionId :=
    congrArg (·.destination.connectionId) hsame.config_eq
  intro connectionId hmem
  rw [hsource, hdestination]
  exact h connectionId hmem

theorem TransferEndpoint.requests_connectionIds (endpoint : TransferEndpoint)
    (client : Option S3Client) :
    ∀ request ∈ endpoint.requests client, request.1 ∈ endpoint.connectionIds := by
  cases endpoint <;> cases client <;>
    simp [TransferEndpoint.requests, TransferEndpoint.connectionIds]

theorem runSync_requests_connectionIds (spec : PendingSyncTask)
    (clients : Except String (Option S3Client × Option S3Client)) :
    ∀ request ∈ (AppTask.runSync spec clients).requests, request.1 ∈ spec.connectionIds := by
  intro request hrequest
  rcases clients with _ | ⟨sourceClient, destinationClient⟩
  · cases spec <;> cases hrequest
  · cases spec with
    | transfer item =>
        rcases List.mem_append.mp hrequest with hsource | hdestination
        · apply List.mem_append_left
          exact item.source.requests_connectionIds sourceClient request hsource
        · apply List.mem_append_right
          exact item.destination.requests_connectionIds destinationClient request hdestination
    | deleteRemote connectionId bucket keys bytes label =>
        cases destinationClient with
        | none => cases hrequest
        | some client =>
            obtain rfl : request = (connectionId, client.endpoint) :=
              List.mem_singleton.mp hrequest
            exact List.mem_singleton.mpr rfl
    | deleteLocal path bytes label => cases hrequest

/-- The tasks handed out use the connections of the items they stand for. -/
theorem HandsOut.connectionIds {specs : List PendingSyncTask}
    {transfers deletes : List SyncRunItem} (h : HandsOut specs transfers deletes) :
    ∀ spec ∈ specs, ∀ connectionId ∈ spec.connectionIds,
      connectionId ∈ transfers.flatMap (·.connectionIds) ++
        deletes.flatMap (·.destination.connectionIds) := by
  intro spec hspec connectionId hid
  cases spec with
  | transfer item =>
      have hitem : item ∈ transfers := by
        rw [← h.transfers_eq]
        exact List.mem_flatMap.mpr ⟨_, hspec, List.mem_singleton.mpr rfl⟩
      exact List.mem_append_left _ (List.mem_flatMap.mpr ⟨item, hitem, hid⟩)
  | deleteRemote target bucket keys bytes label =>
      obtain rfl : connectionId = target := List.mem_singleton.mp hid
      have htargets := h.targets_ne _ hspec rfl
      obtain ⟨endpoint, hendpoint⟩ := List.exists_mem_of_ne_nil _ htargets
      have hdelete : endpoint ∈ deletes.map (·.destination) := by
        rw [← h.deletes_eq]
        exact List.mem_flatMap.mpr ⟨_, hspec, hendpoint⟩
      obtain ⟨item, hitem, rfl⟩ := List.mem_map.mp hdelete
      obtain ⟨key, -, heq⟩ := List.mem_map.mp hendpoint
      refine List.mem_append_right _ (List.mem_flatMap.mpr ⟨item, hitem, ?_⟩)
      simp [← heq, TransferEndpoint.connectionIds]
  | deleteLocal path bytes label => cases hid

theorem address_connectionIds {platform : Platform} {params : EndpointParams}
    {relativePath : Str} {endpoint : TransferEndpoint}
    (h : params.address platform relativePath = .ok endpoint) :
    ∀ connectionId ∈ endpoint.connectionIds, connectionId = params.connectionId := by
  unfold EndpointParams.address at h
  split at h
  next =>
    cases h
    simp [TransferEndpoint.connectionIds]
  next => cases h
  next =>
    cases h
    simp [TransferEndpoint.connectionIds]

/-- A prepared run plan stores the connections of the screen. -/
theorem prepareSyncRunPlan_names {platform : Platform} {sync : SyncState} {plan : SyncPlan}
    {runPlan : SyncRunPlan} (h : prepareSyncRunPlan platform sync plan = .ok runPlan) :
    sync.Names runPlan.connectionIds := by
  intro connectionId hid
  rcases List.mem_append.mp hid with htransfer | hdelete
  · obtain ⟨item, hitem, hmem⟩ := List.mem_flatMap.mp htransfer
    obtain ⟨planItem, -, -, hrun⟩ := mem_runPlan_transfers h hitem
    obtain ⟨-, -, -, hsource, hdestination, -⟩ := transferRunItem_ok hrun
    rcases List.mem_append.mp hmem with hmem | hmem
    · exact .inl (address_connectionIds hsource connectionId hmem)
    · exact .inr (address_connectionIds hdestination connectionId hmem)
  · obtain ⟨item, hitem, hmem⟩ := List.mem_flatMap.mp hdelete
    obtain ⟨planItem, -, -, hrun⟩ := mem_runPlan_deletes h hitem
    obtain ⟨-, -, -, -, hdestination⟩ := deleteRunItem_ok hrun
    exact .inr (address_connectionIds hdestination connectionId hmem)

/-! ## The invariant -/

/-- The run plan and the running run use the connections the screen names. -/
structure SyncState.Aligned (sync : SyncState) : Prop where
  runPlan : ∀ runPlan, sync.runPlan = some runPlan → sync.Names runPlan.connectionIds
  run : ∀ execution, sync.execution = some execution →
    sync.Names execution.runPlan.connectionIds

/-- What one message maintains: an aligned screen and steps that use its connections. -/
structure StaysAligned (result : App × List AppTask) : Prop where
  screen : ∀ after, result.1.sync = some after → after.Aligned
  steps : ∀ spec clients, AppTask.runSync spec clients ∈ result.2 →
    ∃ after, result.1.sync = some after ∧ after.Names spec.connectionIds

section Aligned

variable {before after sync : SyncState} {app : App}

theorem SyncState.Idle.aligned (h : sync.Idle) : sync.Aligned where
  runPlan := by
    intro runPlan hsome
    cases h.runPlan_eq.symm.trans hsome
  run := by
    intro execution hsome
    cases h.execution_eq.symm.trans hsome

/-- The same plan with a run of the same run plan, or of the one on the screen. -/
theorem SyncState.Aligned.same (h : before.Aligned) (hsame : before.SamePlan after)
    (hrun : ∀ execution, after.execution = some execution →
      (∃ held, before.execution = some held ∧ execution.runPlan = held.runPlan) ∨
        before.runPlan = some execution.runPlan) : after.Aligned where
  runPlan := fun runPlan hsome => hsame.names (h.runPlan runPlan (hsame.runPlan_eq ▸ hsome))
  run := by
    intro execution hsome
    rcases hrun execution hsome with ⟨held, hheld, heq⟩ | hplan
    · rw [heq]
      exact hsame.names (h.run held hheld)
    · exact hsame.names (h.runPlan _ hplan)

theorem SyncState.Aligned.kept (h : before.Aligned) (hsame : before.SamePlan after)
    (hexecution : after.execution = before.execution) : after.Aligned :=
  h.same hsame fun execution hsome => .inl ⟨execution, hexecution ▸ hsome, rfl⟩

theorem SyncState.Aligned.rescanned (h : sync.Aligned) (telemetry : SyncTelemetry)
    (source destination : Option (List SyncObject)) :
    SyncState.Aligned
      { sync with
        telemetry := telemetry
        sourceSnapshot := source
        destinationSnapshot := destination } :=
  ⟨h.runPlan, h.run⟩

theorem StaysAligned.quiet (h : after.Aligned) :
    StaysAligned ({ app with sync := some after }, []) := by
  refine ⟨fun after' hafter => ?_, by simp⟩
  obtain rfl : after = after' := Option.some.inj hafter
  exact h

theorem StaysAligned.unchanged (h : ∀ sync, app.sync = some sync → sync.Aligned) :
    StaysAligned (app, []) :=
  ⟨h, by simp⟩

theorem StaysAligned.of_not_runSync {result : App × List AppTask}
    (hscreen : ∀ after, result.1.sync = some after → after.Aligned)
    (htasks : ∀ task ∈ result.2, ∀ spec clients, task ≠ .runSync spec clients) :
    StaysAligned result :=
  ⟨hscreen, fun spec clients hmem => absurd rfl (htasks _ hmem spec clients)⟩

/-- A dispatch of an aligned screen hands out aligned steps. -/
theorem SyncState.Aligned.dispatched (h : sync.Aligned) (surroundings : Surroundings)
    (app : App) : StaysAligned (app.dispatched surroundings (dispatchSyncExecution sync)) := by
  cases hexecution : sync.execution with
  | none =>
      have hquiet : dispatchSyncExecution sync = (sync, []) := by
        simp [dispatchSyncExecution, hexecution]
      rw [hquiet]
      exact .quiet h
  | some execution =>
      have hsame := (dispatchSyncExecution_sameReview sync).toSamePlan
      have hnames := h.run execution hexecution
      refine ⟨fun after hafter => ?_, fun spec clients hspec => ?_⟩
      · obtain rfl : _ = after := Option.some.inj hafter
        obtain ⟨next, stage, hnext, hplan, -⟩ := dispatchSyncExecution_run hexecution
        refine h.same hsame fun execution' hsome => .inl ⟨execution, hexecution, ?_⟩
        rw [hnext] at hsome
        obtain rfl : next = execution' := Option.some.inj hsome
        exact hplan
      · obtain ⟨spec', hmem, heq⟩ := List.mem_map.mp hspec
        obtain rfl : spec' = spec := (AppTask.runSync.inj heq).1
        refine ⟨(dispatchSyncExecution sync).1, rfl, hsame.names fun connectionId hid => ?_⟩
        obtain ⟨next, hd⟩ := dispatchSyncExecution_spec hexecution
        obtain ⟨n, m, hpulled, -⟩ := hd.pulled
        have hhanded := hpulled.handsOut.connectionIds spec' hmem connectionId hid
        rw [phaseLoop_runPlan] at hhanded
        apply hnames
        rcases List.mem_append.mp hhanded with htransfer | hdelete
        · obtain ⟨item, hitem, hin⟩ := List.mem_flatMap.mp htransfer
          exact List.mem_append_left _ (List.mem_flatMap.mpr
            ⟨item, List.mem_of_mem_drop (List.mem_of_mem_take hitem), hin⟩)
        · obtain ⟨item, hitem, hin⟩ := List.mem_flatMap.mp hdelete
          exact List.mem_append_right _ (List.mem_flatMap.mpr
            ⟨item, List.mem_of_mem_drop (List.mem_of_mem_take hitem), hin⟩)

end Aligned

/-! ## Handlers -/

section Handlers

variable {platform : Platform} {surroundings : Surroundings} {app : App}

theorem KeepsOrDrops.aligned {result : App × List AppTask} (hkeeps : KeepsOrDrops app result)
    (h : ∀ sync, app.sync = some sync → sync.Aligned) : StaysAligned result := by
  refine .of_not_runSync (fun after hafter => ?_) fun task htask spec clients heq => ?_
  · rcases hkeeps.sync after hafter with hidle | ⟨before, hbefore, hsame⟩
    · exact hidle.aligned
    · exact (h before hbefore).kept hsame.toSamePlan hsame.execution_eq
  · have hnot := hkeeps.tasks task htask
    rw [heq] at hnot
    cases hnot

variable (h : ∀ sync, app.sync = some sync → sync.Aligned)

include h

theorem failed_staysAligned {sync : SyncState} (hsync : app.sync = some sync) (error : String) :
    StaysAligned ({ app with sync := some (sync.planningFailed error) }, []) :=
  .quiet ((h sync hsync).kept (planningFailed_sameWork sync error).toSamePlan rfl)

theorem handleSyncSourceEnumerated_aligned (result : Except String (List SyncObject)) :
    StaysAligned (handleSyncSourceEnumerated surroundings app result) := by
  cases hsync : app.sync with
  | none =>
      simp only [handleSyncSourceEnumerated, hsync]
      exact .unchanged h
  | some sync =>
      cases result with
      | error error =>
          simp only [handleSyncSourceEnumerated, hsync]
          exact failed_staysAligned h hsync error
      | ok objects =>
          obtain ⟨telemetry, after, hafter, hsame, htasks⟩ :=
            handleSyncSourceEnumerated_spec surroundings app hsync objects
          refine .of_not_runSync (fun after' hafter' => ?_)
            fun task htask => AppTask.not_runSync_of_enumerates (htasks task htask)
          obtain rfl : after = after' := Option.some.inj (hafter.symm.trans hafter')
          exact ((h sync hsync).rescanned telemetry (some objects)
            sync.destinationSnapshot).kept hsame.toSamePlan hsame.execution_eq

theorem handleSyncDestinationEnumerated_aligned (result : Except String (List SyncObject)) :
    StaysAligned (handleSyncDestinationEnumerated app result) := by
  cases hsync : app.sync with
  | none =>
      simp only [handleSyncDestinationEnumerated, hsync]
      exact .unchanged h
  | some sync =>
      obtain ⟨telemetry, snapshot, after, hafter, hsame, -, htasks⟩ :=
        handleSyncDestinationEnumerated_spec app hsync result
      refine .of_not_runSync (fun after' hafter' => ?_) fun task htask spec clients => ?_
      · obtain rfl : after = after' := Option.some.inj (hafter.symm.trans hafter')
        exact ((h sync hsync).rescanned telemetry sync.sourceSnapshot snapshot).kept
          hsame.toSamePlan hsame.execution_eq
      · obtain ⟨_, -, rfl⟩ := htasks task htask
        exact AppTask.noConfusion

/-- A new run plan is prepared on the screen that will hold it. -/
theorem handleSyncPlanBuilt_aligned (result : Except String SyncPlan) :
    StaysAligned (handleSyncPlanBuilt platform app result) := by
  refine .of_not_runSync (fun after hafter => ?_) (by simp [handleSyncPlanBuilt_tasks])
  cases hsync : app.sync with
  | none => simp [handleSyncPlanBuilt, App.withSync, hsync] at hafter
  | some sync =>
      have haligned := h sync hsync
      cases result with
      | error error =>
          simp only [handleSyncPlanBuilt, App.withSync, hsync, Option.map_some,
            Option.some.injEq] at hafter
          subst hafter
          exact haligned.kept ⟨rfl, rfl, rfl, rfl⟩ rfl
      | ok plan =>
          obtain ⟨runPlan, error, telemetry, hafter', -, -, hprepared⟩ :=
            handleSyncPlanBuilt_spec app platform hsync plan
          obtain rfl := Option.some.inj (hafter'.symm.trans hafter)
          refine ⟨fun prepared hsome => ?_, fun execution hexecution => ?_⟩
          · exact prepareSyncRunPlan_names (hprepared prepared hsome)
          · exact haligned.run execution hexecution

theorem RunOutcome.aligned {result : App × List AppTask}
    (houtcome : RunOutcome surroundings app result) : StaysAligned result := by
  cases houtcome with
  | unchanged => exact .unchanged h
  | noted hsync hreview hexecution =>
      exact .quiet ((h _ hsync).kept hreview.toSamePlan hexecution)
  | dispatched error hsync hreview hrun =>
      exact ((h _ hsync).same hreview.toSamePlan hrun).dispatched surroundings _

/-- Every message keeps the screen aligned. -/
theorem update_staysAligned (message : Message) :
    StaysAligned (app.update platform surroundings message) := by
  cases hsteers : message.steersSync with
  | false => exact (update_keepsOrDrops platform surroundings app hsteers).aligned h
  | true =>
      cases message with
      | startSyncPlan =>
          obtain ⟨hidle, htasks⟩ := handleStartSyncPlan_spec surroundings app
          exact .of_not_runSync (fun after hafter => (hidle after hafter).aligned)
            fun task htask => AppTask.not_runSync_of_enumerates (htasks task htask)
      | syncSourceEnumerated result => exact handleSyncSourceEnumerated_aligned h result
      | syncDestinationEnumerated result => exact handleSyncDestinationEnumerated_aligned h result
      | syncPlanBuilt result => exact handleSyncPlanBuilt_aligned h result
      | startSyncCopy | startSync | cancelSyncDeleteConfirm | syncDeleteConfirmTextChanged _
      | confirmSyncDeleteRun | syncCopyStepFinished _ | syncDeleteBatchFinished _ =>
          exact (update_outcome platform surroundings app rfl rfl).aligned h
      | _ => cases hsteers

end Handlers

/-! ## Runs -/

/-- The screen, if open, is aligned. -/
def World.Aligned (world : World) : Prop :=
  ∀ sync, world.app.sync = some sync → sync.Aligned

theorem World.Aligned.handle {platform : Platform} {world : World} (h : world.Aligned)
    (event : WorldEvent) : StaysAligned (world.handle platform event) := by
  cases hreceived : world.received event with
  | none =>
      rcases handle_of_not_received platform hreceived with heq | ⟨browsing, -, heq⟩
      · rw [heq]
        exact .unchanged h
      · rw [heq]
        exact .of_not_runSync h (browse_not_runSync world.app browsing)
  | some received =>
      obtain ⟨surroundings, message⟩ := received
      rw [handle_of_received platform hreceived]
      exact update_staysAligned h message

theorem World.Aligned.step {platform : Platform} {world : World} (h : world.Aligned)
    (event : WorldEvent) : (world.step platform event).Aligned :=
  (h.handle event).screen

theorem World.Reachable.aligned {platform : Platform} {world : World}
    (h : world.Reachable platform) : world.Aligned := by
  obtain ⟨connections, serverConfig, startup, events, rfl⟩ := h
  refine run_invariant World.Aligned (fun world event haligned _ => haligned.step event) ?_
    (along_true _ events)
  intro sync hsync
  cases (start_sync connections serverConfig startup).symm.trans hsync

/-- The steps of a sync run use the two connections of the screen. -/
theorem World.Aligned.steps {platform : Platform} {world : World} (h : world.Aligned)
    {event : WorldEvent} {spec : PendingSyncTask}
    {clients : Except String (Option S3Client × Option S3Client)}
    (hspec : AppTask.runSync spec clients ∈ (world.handle platform event).2) :
    ∃ sync, (world.step platform event).app.sync = some sync ∧
      ∀ request ∈ (AppTask.runSync spec clients).requests,
        request.1 = sync.sourceConnectionId ∨ request.1 = sync.destinationConnectionId := by
  obtain ⟨sync, hsync, hnames⟩ := (h.handle event).steps spec clients hspec
  refine ⟨sync, hsync, fun request hrequest => ?_⟩
  exact hnames request.1 (runSync_requests_connectionIds spec clients request hrequest)

end AbixioUi
