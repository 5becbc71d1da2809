import AbixioUi.App.Review
import AbixioUi.Sync.RunPlan

/-! # Where a plan comes from

Planning runs in three stages, and the result of a stage does not say which settings
it was started under. A plan is proven when the listings it compares were enumerated
under the settings the screen holds now.
-/

namespace AbixioUi

open Foundation

/-! ## Provenance -/

/-- The two listings were enumerated under the settings. -/
def EnumeratedUnder (listings : List Listing) (config : PlanConfig)
    (source destination : List SyncObject) : Prop :=
  ⟨true, config.source, source⟩ ∈ listings ∧ ⟨false, config.destination, destination⟩ ∈ listings

/-- The plan compares listings enumerated under the settings, as the settings say. -/
def PlannedUnder (listings : List Listing) (config : PlanConfig) (plan : SyncPlan) : Prop :=
  ∃ source destination, EnumeratedUnder listings config source destination ∧
    plan = buildSyncPlan source destination config.mode config.policy config.compareMode

structure Provenance (platform : Platform) (listings : List Listing) (sync : SyncState) :
    Prop where
  plan : ∀ plan, sync.plan = some plan → PlannedUnder listings sync.planConfig plan
  runPlan : ∀ runPlan, sync.runPlan = some runPlan →
    ∃ plan, PlannedUnder listings sync.planConfig plan ∧
      prepareSyncRunPlan platform sync plan = .ok runPlan

/-- The plan and the run plan on the screen were made under its settings. -/
def World.Proven (platform : Platform) (world : World) : Prop :=
  ∀ sync, world.app.sync = some sync → Provenance platform world.listings sync

/-- The source listing that was delivered last. -/
def World.latestSource (world : World) : Option Listing :=
  world.listings.reverse.find? (·.source)

/-- The result of the request still fits the screen: a destination listing was
enumerated under the destination settings held now and meets a source listing that was
enumerated under the source settings held now; a plan was asked for under the settings
held now. -/
def Request.Fresh (latestSource : Option Listing) (sync : SyncState) (replies : Replies)
    (request : Request) : Prop :=
  match request.task, replies.objects with
  | .enumerateSyncDestination params _, .ok _ =>
      params = sync.planConfig.destination ∧ sync.sourceSnapshot.isSome = true ∧
        latestSource.map (·.params) = some sync.planConfig.source
  | .buildSyncPlan _ _ _ _ _, _ => request.config = some sync.planConfig
  | _, _ => True

/-- No planning result lands on a screen it does not fit. -/
def World.Fresh (world : World) : WorldEvent → Prop
  | .deliver _ index replies =>
      match world.inFlight[index]?, world.app.sync with
      | some request, some sync => request.Fresh world.latestSource sync replies
      | _, _ => True
  | _ => True

/-! ## Handlers -/

def AppTask.builds : AppTask → Bool
  | .buildSyncPlan _ _ _ _ _ => true
  | _ => false

def Message.isPlanningResult : Message → Bool
  | .syncSourceEnumerated _ | .syncDestinationEnumerated _ | .syncPlanBuilt _ => true
  | _ => false

/-- The plan on the screen is kept or dropped, and no plan is asked for. -/
structure KeepsPlan (app : App) (result : App × List AppTask) : Prop where
  sync : ∀ after, result.1.sync = some after →
    after.PlanFree ∨ ∃ before, app.sync = some before ∧ before.SamePlan after
  tasks : ∀ task ∈ result.2, task.builds = false

theorem AppTask.builds_of_syncs {task : AppTask} (h : task.syncs = false) :
    task.builds = false := by
  cases task <;> first | rfl | cases h

theorem AppTask.builds_of_enumerates {task : AppTask} (h : task.enumerates = true) :
    task.builds = false := by
  cases task <;> first | rfl | cases h

theorem KeepsOrDrops.keepsPlan {app : App} {result : App × List AppTask}
    (h : KeepsOrDrops app result) : KeepsPlan app result where
  sync := fun after hafter => (h.sync after hafter).imp SyncState.Idle.toPlanFree
    fun ⟨before, hbefore, hsame⟩ => ⟨before, hbefore, hsame.toSamePlan⟩
  tasks := fun task htask => AppTask.builds_of_syncs (h.tasks task htask)

theorem KeepsReview.keepsPlan {app : App} {result : App × List AppTask}
    (h : KeepsReview app result) : KeepsPlan app result where
  sync := by
    intro after hafter
    obtain ⟨before, hbefore, hsame⟩ := h.sync after hafter
    exact .inr ⟨before, hbefore, hsame.toSamePlan⟩
  tasks := by
    intro task htask
    obtain ⟨spec, clients, rfl⟩ := h.tasks task htask
    rfl

section Handlers

variable (surroundings : Surroundings) (app : App)

/-- Only the results of planning make a plan. -/
theorem update_keepsPlan (platform : Platform) {message : Message}
    (h : message.isPlanningResult = false) :
    KeepsPlan app (app.update platform surroundings message) := by
  cases hsteers : message.steersSync with
  | false => exact (update_keepsOrDrops platform surroundings app hsteers).keepsPlan
  | true =>
      cases hplans : message.plans with
      | false =>
          exact (update_outcome platform surroundings app hsteers hplans).keepsReview.keepsPlan
      | true =>
          cases message with
          | startSyncPlan =>
              obtain ⟨hsync, htasks⟩ := handleStartSyncPlan_spec surroundings app
              exact ⟨fun after hafter => .inl (hsync after hafter).toPlanFree,
                fun task htask => AppTask.builds_of_enumerates (htasks task htask)⟩
          | syncSourceEnumerated _ | syncDestinationEnumerated _ | syncPlanBuilt _ => cases h
          | _ => cases hplans

end Handlers

theorem keepsPlan_unchanged (app : App) : KeepsPlan app (app, []) :=
  ⟨fun after hafter => .inr ⟨after, hafter, rfl, rfl, rfl, rfl⟩, by simp⟩

theorem failed_keepsPlan {app : App} {sync : SyncState} (hsync : app.sync = some sync)
    (error : String) :
    KeepsPlan app ({ app with sync := some (sync.planningFailed error) }, []) := by
  refine ⟨fun after hafter => .inr ⟨sync, hsync, ?_⟩, by simp⟩
  obtain rfl : _ = after := Option.some.inj hafter
  exact (planningFailed_sameWork sync error).toSamePlan

/-! ## The invariant -/

/-- A plan in the making compares listings enumerated under the settings it was asked
for with. -/
def Request.Traced (listings : List Listing) (request : Request) : Prop :=
  request.task.builds = true → ∃ config source destination,
    request.config = some config ∧ EnumeratedUnder listings config source destination ∧
      request.task =
        .buildSyncPlan source destination config.mode config.policy config.compareMode

structure World.Traced (platform : Platform) (world : World) : Prop where
  proven : world.Proven platform
  snapshot : ∀ sync source, world.app.sync = some sync → sync.sourceSnapshot = some source →
    ∃ params, world.latestSource = some ⟨true, params, source⟩
  building : ∀ request ∈ world.inFlight, request.Traced world.listings

theorem latestSource_mem {world : World} {listing : Listing}
    (h : world.latestSource = some listing) : listing ∈ world.listings :=
  List.mem_reverse.mp (List.mem_of_find?_eq_some h)

section Mono

variable {listings listings' : List Listing} (hsub : ∀ l ∈ listings, l ∈ listings')

include hsub

theorem EnumeratedUnder.mono {config : PlanConfig} {source destination : List SyncObject}
    (h : EnumeratedUnder listings config source destination) :
    EnumeratedUnder listings' config source destination :=
  ⟨hsub _ h.1, hsub _ h.2⟩

theorem PlannedUnder.mono {config : PlanConfig} {plan : SyncPlan}
    (h : PlannedUnder listings config plan) : PlannedUnder listings' config plan := by
  obtain ⟨source, destination, henumerated, rfl⟩ := h
  exact ⟨source, destination, henumerated.mono hsub, rfl⟩

theorem Request.Traced.mono {request : Request} (h : request.Traced listings) :
    request.Traced listings' := by
  intro hbuilds
  obtain ⟨config, source, destination, hconfig, henumerated, htask⟩ := h hbuilds
  exact ⟨config, source, destination, hconfig, henumerated.mono hsub, htask⟩

/-- A screen with the plan of a proven one is proven. -/
theorem Provenance.same {platform : Platform} {before after : SyncState}
    (h : Provenance platform listings before) (hconfig : after.planConfig = before.planConfig)
    (hplan : after.plan = before.plan) (hrunPlan : after.runPlan = before.runPlan) :
    Provenance platform listings' after where
  plan := by
    intro plan hsome
    rw [hconfig]
    exact (h.plan plan (hplan ▸ hsome)).mono hsub
  runPlan := by
    intro runPlan hsome
    obtain ⟨plan, hplanned, hprepared⟩ := h.runPlan runPlan (hrunPlan ▸ hsome)
    refine ⟨plan, ?_, ?_⟩
    · rw [hconfig]
      exact hplanned.mono hsub
    · rw [prepareSyncRunPlan_planConfig platform hconfig]
      exact hprepared

end Mono

theorem Provenance.of_planFree {platform : Platform} {listings : List Listing}
    {sync : SyncState} (h : sync.PlanFree) : Provenance platform listings sync where
  plan := by
    intro plan hsome
    rw [h.plan_eq] at hsome
    cases hsome
  runPlan := by
    intro runPlan hsome
    rw [h.runPlan_eq] at hsome
    cases hsome

/-! ## Steps -/

section Steps

variable {platform : Platform} {world : World} {event : WorldEvent}

theorem World.listed_sub (world : World) (event : WorldEvent) :
    ∀ l ∈ world.listings, l ∈ world.listed event := by
  intro l hl
  cases event with
  | user _ _ | browse _ => exact hl
  | deliver _ index replies =>
      cases h : world.inFlight[index]? with
      | none => simpa [World.listed, h] using hl
      | some request => simp [World.listed, h, hl]

theorem step_listings_sub (platform : Platform) (world : World) (event : WorldEvent) :
    ∀ l ∈ world.listings, l ∈ (world.step platform event).listings :=
  world.listed_sub event

/-- Requests stay traced when no plan is asked for. -/
theorem World.Traced.building_step (h : world.Traced platform)
    (htasks : ∀ task ∈ (world.handle platform event).2, task.builds = false) :
    ∀ request ∈ (world.step platform event).inFlight,
      request.Traced (world.step platform event).listings := by
  intro request hrequest
  rcases mem_inFlight_step hrequest with hold | ⟨task, htask, rfl⟩
  · exact (h.building request hold).mono (world.listed_sub event)
  · intro hbuilds
    have hnot := htasks task htask
    simp only [hnot, Bool.false_eq_true] at hbuilds

/-- A message that keeps the plan keeps the trace. -/
theorem World.Traced.keepsPlan (h : world.Traced platform)
    (hkeeps : KeepsPlan world.app (world.handle platform event))
    (hlisted : world.listed event = world.listings) :
    (world.step platform event).Traced platform where
  proven := by
    intro after hafter
    rcases hkeeps.sync after hafter with hfree | ⟨before, hbefore, hsame⟩
    · exact .of_planFree hfree
    · exact (h.proven before hbefore).same (world.listed_sub event) hsame.config_eq
        hsame.plan_eq hsame.runPlan_eq
  snapshot := by
    intro after source hafter hsource
    have hlatest : (world.step platform event).latestSource = world.latestSource := by
      simp only [World.latestSource, step_listings, hlisted]
    rw [hlatest]
    rcases hkeeps.sync after hafter with hfree | ⟨before, hbefore, hsame⟩
    · rw [hfree.sourceSnapshot_eq] at hsource
      cases hsource
    · exact h.snapshot before source hbefore (hsame.sourceSnapshot_eq ▸ hsource)
  building := h.building_step hkeeps.tasks

theorem browse_keepsPlan (app : App) (browsing : Browsing) :
    KeepsPlan app (app.browse browsing) :=
  (browse_beside calm app browsing).toLeavesSync.keepsOrDrops.keepsPlan

theorem handle_keepsPlan
    (h : ∀ surroundings message, world.received event = some (surroundings, message) →
      message.isPlanningResult = false) :
    KeepsPlan world.app (world.handle platform event) := by
  cases hreceived : world.received event with
  | none =>
      rcases handle_of_not_received platform hreceived with heq | ⟨browsing, -, heq⟩
      · rw [heq]
        exact keepsPlan_unchanged world.app
      · rw [heq]
        exact browse_keepsPlan world.app browsing
  | some received =>
      obtain ⟨surroundings, message⟩ := received
      rw [handle_of_received platform hreceived]
      exact update_keepsPlan surroundings world.app platform (h surroundings message hreceived)

theorem isPlanningResult_of_isResult {message : Message} (h : message.isResult = false) :
    message.isPlanningResult = false := by
  cases message with
  | syncSourceEnumerated _ | syncDestinationEnumerated _ | syncPlanBuilt _ => cases h
  | _ => rfl

theorem SyncRunResult.message_isPlanningResult (result : SyncRunResult) :
    result.message.isPlanningResult = false := by
  cases result <;> rfl

/-- The tasks of the three planning stages. -/
def AppTask.plans : AppTask → Bool
  | .enumerateSyncSource _ _ | .enumerateSyncDestination _ _ | .buildSyncPlan _ _ _ _ _ => true
  | _ => false

theorem AppTask.of_not_plans {task : AppTask} (h : task.plans = false) (replies : Replies) :
    task.listings replies = [] ∧
      ∀ message, task.message replies = some message → message.isPlanningResult = false := by
  cases task with
  | enumerateSyncSource _ _ | enumerateSyncDestination _ _ | buildSyncPlan _ _ _ _ _ => cases h
  | runSync spec clients =>
      refine ⟨rfl, fun message hmessage => ?_⟩
      obtain rfl : _ = message := Option.some.inj hmessage
      exact SyncRunResult.message_isPlanningResult _
  | fetchBuckets _ | fetchObjects _ _ _ => exact ⟨rfl, fun message hmessage => by cases hmessage⟩
  | _ =>
      refine ⟨rfl, fun message hmessage => ?_⟩
      obtain rfl : _ = message := Option.some.inj hmessage
      rfl

section Deliveries

variable (platform : Platform) (surroundings : Surroundings) {index : Nat} (replies : Replies)
  {request : Request}

theorem received_deliver (h : world.inFlight[index]? = some request) :
    world.received (.deliver surroundings index replies) =
      (request.task.message replies).map fun message => (surroundings, message) := by
  simp [World.received, h]

theorem listed_deliver (h : world.inFlight[index]? = some request) :
    world.listed (.deliver surroundings index replies) =
      world.listings ++ request.task.listings replies := by
  simp [World.listed, h]

theorem handle_deliver {message : Message} (h : world.inFlight[index]? = some request)
    (hmessage : request.task.message replies = some message) :
    world.handle platform (.deliver surroundings index replies) =
      world.app.update platform surroundings message := by
  apply handle_of_received
  rw [received_deliver surroundings replies h, hmessage]
  rfl

end Deliveries

variable {surroundings : Surroundings} {index : Nat} {replies : Replies} {request : Request}

/-- The result of the first stage becomes the source listing of the screen. -/
theorem World.Traced.sourceDelivered (h : world.Traced platform)
    (hrequest : world.inFlight[index]? = some request) {params : EndpointParams}
    {client : Option S3Client} (htask : request.task = .enumerateSyncSource params client) :
    (world.step platform (.deliver surroundings index replies)).Traced platform := by
  have hhandle := handle_deliver platform surroundings replies hrequest (by rw [htask]; rfl)
  have hlisted := listed_deliver surroundings replies hrequest
  rw [htask] at hlisted
  change world.handle platform _ =
    handleSyncSourceEnumerated surroundings world.app replies.objects at hhandle
  cases hreply : replies.objects with
  | error error =>
      rw [hreply] at hhandle
      refine h.keepsPlan ?_ (by simp [hlisted, AppTask.listings, hreply])
      rw [hhandle]
      unfold handleSyncSourceEnumerated
      cases hsync : world.app.sync with
      | none => exact keepsPlan_unchanged world.app
      | some sync => exact failed_keepsPlan hsync error
  | ok objects =>
      rw [hreply] at hhandle
      have hlatest : (world.step platform
          (.deliver surroundings index replies)).latestSource = some ⟨true, params, objects⟩ := by
        simp [World.latestSource, step_listings, hlisted, AppTask.listings, hreply]
      cases hsync : world.app.sync with
      | none =>
          have hquiet : handleSyncSourceEnumerated surroundings world.app (.ok objects) =
              (world.app, []) := by
            simp [handleSyncSourceEnumerated, hsync]
          rw [hquiet] at hhandle
          have hnone : ∀ sync, (world.step platform
              (.deliver surroundings index replies)).app.sync ≠ some sync := by
            intro sync hsome
            rw [step_app, hhandle, hsync] at hsome
            cases hsome
          exact ⟨fun sync hsome => absurd hsome (hnone sync),
            fun sync _ hsome => absurd hsome (hnone sync),
            h.building_step (by rw [hhandle]; simp)⟩
      | some sync =>
          obtain ⟨telemetry, after, hafter, hsame, htasks⟩ :=
            handleSyncSourceEnumerated_spec surroundings world.app hsync objects
          rw [← hhandle] at hafter htasks
          refine ⟨?_, ?_, h.building_step fun task htask =>
            AppTask.builds_of_enumerates (htasks task htask)⟩
          · intro after' hafter'
            obtain rfl : after = after' := Option.some.inj (hafter.symm.trans hafter')
            exact (h.proven sync hsync).same (step_listings_sub platform world _)
              hsame.config_eq hsame.plan_eq hsame.runPlan_eq
          · intro after' source hafter' hsource
            obtain rfl : after = after' := Option.some.inj (hafter.symm.trans hafter')
            obtain rfl : objects = source :=
              Option.some.inj (hsame.sourceSnapshot_eq.symm.trans hsource)
            exact ⟨params, hlatest⟩

/-- A fresh result of the second stage asks for a plan of two listings that were
enumerated under the held settings. -/
theorem World.Traced.destinationDelivered (h : world.Traced platform)
    (hrequest : world.inFlight[index]? = some request) {params : EndpointParams}
    {client : Option S3Client} (htask : request.task = .enumerateSyncDestination params client)
    (hfresh : world.Fresh (.deliver surroundings index replies)) :
    (world.step platform (.deliver surroundings index replies)).Traced platform := by
  have hhandle := handle_deliver platform surroundings replies hrequest (by rw [htask]; rfl)
  have hlisted := listed_deliver surroundings replies hrequest
  rw [htask] at hlisted
  change world.handle platform _ =
    handleSyncDestinationEnumerated world.app replies.objects at hhandle
  have hlatest : (world.step platform (.deliver surroundings index replies)).latestSource =
      world.latestSource := by
    cases hreply : replies.objects <;>
      simp [World.latestSource, step_listings, hlisted, AppTask.listings, hreply]
  cases hsync : world.app.sync with
  | none =>
      have hquiet : handleSyncDestinationEnumerated world.app replies.objects =
          (world.app, []) := by
        simp [handleSyncDestinationEnumerated, hsync]
      rw [hquiet] at hhandle
      have hnone : ∀ sync, (world.step platform
          (.deliver surroundings index replies)).app.sync ≠ some sync := by
        intro sync hsome
        rw [step_app, hhandle, hsync] at hsome
        cases hsome
      exact ⟨fun sync hsome => absurd hsome (hnone sync),
        fun sync _ hsome => absurd hsome (hnone sync),
        h.building_step (by rw [hhandle]; simp)⟩
  | some sync =>
      obtain ⟨telemetry, snapshot, after, hafter, hsame, -, htasks⟩ :=
        handleSyncDestinationEnumerated_spec world.app hsync replies.objects
      rw [← hhandle] at hafter htasks
      refine ⟨?_, ?_, ?_⟩
      · intro after' hafter'
        obtain rfl : after = after' := Option.some.inj (hafter.symm.trans hafter')
        exact (h.proven sync hsync).same (step_listings_sub platform world _) hsame.config_eq
          hsame.plan_eq hsame.runPlan_eq
      · intro after' source hafter' hsource
        obtain rfl : after = after' := Option.some.inj (hafter.symm.trans hafter')
        rw [hlatest]
        exact h.snapshot sync source hsync (hsame.sourceSnapshot_eq ▸ hsource)
      · intro request' hrequest'
        rcases mem_inFlight_step hrequest' with hold | ⟨task, hnew, rfl⟩
        · exact (h.building request' hold).mono (step_listings_sub platform world _)
        · intro _
          obtain ⟨objects, hreply, rfl⟩ := htasks task hnew
          simp only [World.Fresh, hrequest, hsync, Request.Fresh, htask, hreply] at hfresh
          obtain ⟨hparams, hheld, hcurrent⟩ := hfresh
          obtain ⟨source, hsource⟩ := Option.isSome_iff_exists.mp hheld
          obtain ⟨sourceParams, hlast⟩ := h.snapshot sync source hsync hsource
          have hsourceParams : sourceParams = sync.planConfig.source := by
            rw [hlast] at hcurrent
            exact Option.some.inj hcurrent
          refine ⟨sync.planConfig, source, objects, ?_, ⟨?_, ?_⟩, ?_⟩
          · simp only [hafter, Option.map_some, hsame.config_eq]
            rfl
          · exact step_listings_sub platform world _ _ (hsourceParams ▸ latestSource_mem hlast)
          · rw [step_listings, hlisted]
            simp [AppTask.listings, hreply, hparams]
          · rw [hsource]
            rfl

/-- A fresh plan was made from listings enumerated under the held settings. -/
theorem World.Traced.planDelivered (h : world.Traced platform)
    (hrequest : world.inFlight[index]? = some request) (hbuilds : request.task.builds = true)
    (hfresh : world.Fresh (.deliver surroundings index replies)) :
    (world.step platform (.deliver surroundings index replies)).Traced platform := by
  obtain ⟨config, source, destination, hconfig, henumerated, htask⟩ :=
    h.building request (List.mem_of_getElem? hrequest) hbuilds
  have hhandle := handle_deliver platform surroundings replies hrequest (by rw [htask]; rfl)
  have hlisted := listed_deliver surroundings replies hrequest
  simp only [htask, AppTask.listings, List.append_nil] at hlisted
  cases hsync : world.app.sync with
  | none =>
      refine h.keepsPlan ⟨fun after hafter => ?_, ?_⟩ hlisted
      · rw [hhandle] at hafter
        simp [App.update, handleSyncPlanBuilt, App.withSync, hsync] at hafter
      · rw [hhandle]
        simp [App.update, handleSyncPlanBuilt, App.withSync]
  | some sync =>
      simp only [World.Fresh, hrequest, hsync, Request.Fresh, htask] at hfresh
      obtain rfl : config = sync.planConfig := Option.some.inj (hconfig.symm.trans hfresh)
      have hplanned : PlannedUnder world.listings sync.planConfig
          (buildSyncPlan source destination sync.mode sync.policy sync.tuning.compareMode) :=
        ⟨source, destination, henumerated, rfl⟩
      obtain ⟨runPlan, error, telemetry, hafter, -, -, hprepared⟩ :=
        handleSyncPlanBuilt_spec world.app platform hsync
          (buildSyncPlan source destination sync.mode sync.policy sync.tuning.compareMode)
      replace hafter := (congrArg (·.1.sync) hhandle).trans hafter
      refine ⟨?_, ?_, ?_⟩
      · intro after hafter'
        obtain rfl := Option.some.inj (hafter.symm.trans hafter')
        rw [step_listings, hlisted]
        refine ⟨fun plan hplan => ?_, fun prepared hrunPlan => ⟨_, hplanned, ?_⟩⟩
        · obtain rfl := Option.some.inj hplan
          exact hplanned
        · rw [← hprepared prepared hrunPlan]
          exact prepareSyncRunPlan_planConfig platform rfl _
      · intro after listing hafter' hsource
        obtain rfl := Option.some.inj (hafter.symm.trans hafter')
        have hlatest : (world.step platform
            (.deliver surroundings index replies)).latestSource = world.latestSource := by
          simp only [World.latestSource, step_listings, hlisted]
        rw [hlatest]
        exact h.snapshot sync listing hsync hsource
      · apply h.building_step
        rw [hhandle]
        simp [App.update, handleSyncPlanBuilt, App.withSync]

/-- Every event whose planning result fits keeps the trace. -/
theorem World.Traced.step (h : world.Traced platform) (hfresh : world.Fresh event) :
    (world.step platform event).Traced platform := by
  cases event with
  | browse browsing => exact h.keepsPlan (browse_keepsPlan world.app browsing) rfl
  | user surroundings message =>
      refine h.keepsPlan (handle_keepsPlan ?_) rfl
      intro surroundings' message' hreceived
      unfold World.received at hreceived
      cases hresult : message.isResult with
      | true => simp [hresult] at hreceived
      | false =>
          simp only [hresult, Bool.false_eq_true, if_false, Option.some.injEq,
            Prod.mk.injEq] at hreceived
          obtain ⟨-, rfl⟩ := hreceived
          exact isPlanningResult_of_isResult hresult
  | deliver surroundings index replies =>
      cases hrequest : world.inFlight[index]? with
      | none =>
          refine h.keepsPlan (handle_keepsPlan ?_) (by simp [World.listed, hrequest])
          simp [World.received, hrequest]
      | some request =>
          cases hplans : request.task.plans with
          | false =>
              obtain ⟨hnone, hmessage⟩ := AppTask.of_not_plans hplans replies
              refine h.keepsPlan (handle_keepsPlan ?_) ?_
              · intro surroundings' message hreceived
                rw [received_deliver surroundings replies hrequest] at hreceived
                obtain ⟨message', heq, hpair⟩ := Option.map_eq_some_iff.mp hreceived
                cases hpair
                exact hmessage message heq
              · rw [listed_deliver surroundings replies hrequest, hnone, List.append_nil]
          | true =>
              cases htask : request.task with
              | enumerateSyncSource params client => exact h.sourceDelivered hrequest htask
              | enumerateSyncDestination params client =>
                  exact h.destinationDelivered hrequest htask hfresh
              | buildSyncPlan source destination mode policy compareMode =>
                  exact h.planDelivered hrequest (by rw [htask]; rfl) hfresh
              | _ =>
                  rw [htask] at hplans
                  cases hplans

end Steps

/-- In a run on which every planning result fits the screen it lands on, the plan and the
run plan always come from listings enumerated under the settings the screen holds. -/
theorem run_proven (platform : Platform) (connections : List Connection)
    (serverConfig : ServerConfig) (startup : StartupOptions) (events : List WorldEvent)
    (hfresh : Along (World.step platform) World.Fresh
      (World.start connections serverConfig startup) events) :
    (run (World.step platform) (World.start connections serverConfig startup) events).Proven
      platform := by
  have hnone := start_sync connections serverConfig startup
  have hstart : (World.start connections serverConfig startup).Traced platform := by
    refine ⟨?_, ?_, ?_⟩
    · intro sync hsync
      cases hnone.symm.trans hsync
    · intro sync source hsync
      cases hnone.symm.trans hsync
    · intro request hrequest hbuilds
      obtain ⟨client, htask⟩ := mem_inFlight_start hrequest
      rw [htask] at hbuilds
      cases hbuilds
  exact (run_invariant (World.Traced platform) (fun _ _ h => h.step) hstart hfresh).proven

/-! ## A run that changes the source while it is listed -/

/-- Plan a sync from bucket `a` to bucket `b`, with some messages right after the start;
then the three stages end. -/
def planningRun (meanwhile : List Message) : List WorldEvent :=
  ([Message.openSync, .syncModeChanged .sync, .syncSourceBucketChanged "a".toList,
      .syncDestinationBucketChanged "b".toList, .startSyncPlan] ++ meanwhile).map
      (WorldEvent.user calm) ++
    [.deliver calm 0 emptyReplies, .deliver calm 0 emptyReplies, .deliver calm 0 emptyReplies]

theorem run_proven_undisturbed :
    (run (World.step .unix) unconnected (planningRun [])).Proven .unix :=
  run_proven .unix [] noServer ⟨none, none⟩ (planningRun [])
    ⟨trivial, trivial, trivial, trivial, trivial, trivial, ⟨rfl, rfl, rfl⟩, rfl, trivial⟩

/-- A source bucket chosen while the source is enumerated: the plan shown for bucket `c`
compares the objects of bucket `a`. -/
theorem source_changed_while_listed :
    ¬ (run (World.step .unix) unconnected
        (planningRun [.syncSourceBucketChanged "c".toList])).Proven .unix := by
  intro hproven
  have hscreen : ((run (World.step .unix) unconnected
      (planningRun [.syncSourceBucketChanged "c".toList])).app.sync.map fun sync =>
        (sync.plan.isSome, sync.planConfig.source.bucket)) = some (true, "c".toList) := by
    decide
  have hlistings : ∀ listing ∈ (run (World.step .unix) unconnected
      (planningRun [.syncSourceBucketChanged "c".toList])).listings,
        listing.params.bucket ≠ "c".toList := by
    decide
  obtain ⟨sync, hsync, hfacts⟩ := Option.map_eq_some_iff.mp hscreen
  obtain ⟨hplanned, hbucket⟩ := Prod.mk.inj hfacts
  obtain ⟨plan, hplan⟩ := Option.isSome_iff_exists.mp hplanned
  obtain ⟨source, destination, henumerated, -⟩ := (hproven sync hsync).plan plan hplan
  exact hlistings _ henumerated.1 hbucket

end AbixioUi
