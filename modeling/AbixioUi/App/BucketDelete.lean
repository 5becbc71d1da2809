import AbixioUi.App.World

/-! # Deleting a bucket

The keys of the preview are deleted one by one and then the bucket, each step started
when the one before returns. The name typed for confirmation can be edited all the time,
and is looked at before every step.
-/

namespace AbixioUi

open Foundation

/-! ## The machine -/

/-- A bucket delete with its steps in flight and the steps that returned. -/
structure BucketRun where
  app : App
  inFlight : List AppTask
  answered : List (AppTask × Except String BucketDeleteStepResult)

def BucketRun.start (app : App) : BucketRun := ⟨app, [], []⟩

inductive BucketEvent
  | previewLoaded (bucket : Str) (result : Except String (List Str))
  | confirmNameChanged (value : Str)
  | confirm
  | stepFinished (result : Except String BucketDeleteStepResult)

def AppTask.isDeleteStep : AppTask → Bool
  | .deleteBucketObject _ _ _ | .deleteBucket _ _ => true
  | _ => false

/-- The button is there only when the delete can start. -/
def BucketRun.handle (run : BucketRun) : BucketEvent → App × List AppTask
  | .previewLoaded bucket result => handleBucketDeletePreviewLoaded run.app bucket result
  | .confirmNameChanged value => handleBucketDeleteConfirmNameChanged run.app value
  | .confirm =>
      if run.app.bucketDeleteCanStart then handleConfirmDeleteBucket run.app else (run.app, [])
  | .stepFinished result => handleBucketDeleteStepFinished run.app result

/-- The delete steps that an event starts. -/
def BucketRun.issues (run : BucketRun) (event : BucketEvent) : List AppTask :=
  (run.handle event).2.filter AppTask.isDeleteStep

/-- A result is that of the step that has waited longest. -/
def BucketRun.step (run : BucketRun) (event : BucketEvent) : BucketRun :=
  { app := (run.handle event).1
    inFlight :=
      (match event with
        | .stepFinished _ => run.inFlight.tail
        | _ => run.inFlight) ++ run.issues event
    answered := run.answered ++
      match event, run.inFlight with
      | .stepFinished result, task :: _ => [(task, result)]
      | _, _ => [] }

/-- Only a step in flight returns. -/
def BucketRun.Possible (run : BucketRun) : BucketEvent → Prop
  | .stepFinished _ => run.inFlight ≠ []
  | _ => True

/-! ## The handlers -/

/-- The step at the cursor: the next key, or the bucket when no key is left. -/
def BucketDeleteState.nextStep (state : BucketDeleteState) (client : S3Client) : AppTask :=
  match state.objectKeys[state.nextIndex]? with
  | some key => .deleteBucketObject client state.bucket key
  | none => .deleteBucket client state.bucket

/-- The preview is there and the typed name is that of the bucket. -/
def BucketDeleteState.Ready (state : BucketDeleteState) : Prop :=
  state.previewLoading = false ∧ state.confirmName = state.bucket

instance (state : BucketDeleteState) : Decidable state.Ready :=
  inferInstanceAs (Decidable (_ ∧ _))

/-- The modal after a preview arrived; one of another bucket is dropped. -/
def BucketDeleteState.previewed (state : BucketDeleteState) (bucket : Str)
    (result : Except String (List Str)) : BucketDeleteState :=
  if state.bucket ≠ bucket then state
  else
    match result with
    | .ok keys =>
        { state with
          previewLoading := false
          totalObjects := keys.length
          objectKeys := keys
          summary := some
            (if keys.length = 0 then "Bucket is empty."
             else "Bucket contains " ++ toString keys.length ++
               " object(s). Delete will remove them recursively.") }
    | .error error =>
        { state with previewLoading := false, summary := some ("Preview failed: " ++ error) }

/-- The modal after a key was deleted. -/
def BucketDeleteState.counted (state : BucketDeleteState) (label : Str) : BucketDeleteState :=
  { state with
    deletedObjects := state.deletedObjects + 1
    nextIndex := state.nextIndex + 1
    summary := some ("Deleting objects: " ++ toString (state.deletedObjects + 1) ++
      "/" ++ toString state.totalObjects ++ " complete. Last: " ++ String.ofList label) }

/-- The modal after a step failed. -/
def BucketDeleteState.stopped (state : BucketDeleteState) (error : String) : BucketDeleteState :=
  { state with
    deleting := false
    summary := some ("Delete stopped after " ++ toString state.deletedObjects ++
      " of " ++ toString state.totalObjects ++ " objects: " ++ error) }

/-- A modal that is ready starts its next step; any other is left as it is. -/
def BucketDeleteState.proceed (state : BucketDeleteState) (client : S3Client) :
    BucketDeleteState × List AppTask :=
  if state.Ready then ({ state with deleting := true }, [state.nextStep client]) else (state, [])

/-- What an event makes of an open modal, and the delete steps it starts. -/
def BucketDeleteState.after (state : BucketDeleteState) (client : S3Client) :
    BucketEvent → Option BucketDeleteState × List AppTask
  | .previewLoaded bucket result => (some (state.previewed bucket result), [])
  | .confirmNameChanged value => (some { state with confirmName := value }, [])
  | .confirm =>
      if state.deleting = false ∧ state.bucket ≠ [] then
        (some (state.proceed client).1, (state.proceed client).2)
      else (some state, [])
  | .stepFinished (.ok (.objectDeleted label)) =>
      (some ((state.counted label).proceed client).1, ((state.counted label).proceed client).2)
  | .stepFinished (.ok (.bucketDeleted _)) => (none, [])
  | .stepFinished (.error error) => (some (state.stopped error), [])

section

variable {app : App} {run : BucketRun} {state : BucketDeleteState}

theorem processNextBucketDeleteStep_eq (h : app.bucketDelete = some state) :
    (processNextBucketDeleteStep app).1.bucketDelete = some (state.proceed app.client).1 ∧
      (processNextBucketDeleteStep app).2.filter AppTask.isDeleteStep =
        (state.proceed app.client).2 := by
  unfold BucketDeleteState.proceed
  by_cases hready : state.Ready
  · obtain ⟨hpreview, hname⟩ := id hready
    simp only [processNextBucketDeleteStep, h, hpreview, hname, Bool.false_eq_true, ne_eq,
      not_true, or_self, if_false, hready, if_true, true_and]
    unfold BucketDeleteState.nextStep
    cases state.objectKeys[state.nextIndex]? <;> rfl
  · have hblocked : state.previewLoading = true ∨ state.confirmName ≠ state.bucket := by
      by_cases hpreview : state.previewLoading = true
      · exact .inl hpreview
      · exact .inr fun hname => hready ⟨by simpa using hpreview, hname⟩
    simp only [processNextBucketDeleteStep, h, if_pos hblocked, if_neg hready]
    exact ⟨trivial, rfl⟩

/-- Reloading the listings deletes nothing. -/
theorem filter_fetches (app : App) :
    app.fetchBuckets.filter AppTask.isDeleteStep = [] ∧
      (app.fetchBuckets ++ app.fetchObjects).filter AppTask.isDeleteStep = [] := by
  have hobjects : app.fetchObjects.filter AppTask.isDeleteStep = [] := by
    unfold App.fetchObjects
    split <;> rfl
  constructor
  · rfl
  · rw [List.filter_append, hobjects]
    rfl

/-- The handlers do to an open modal what `after` says. -/
theorem BucketRun.handle_open (h : run.app.bucketDelete = some state) (event : BucketEvent) :
    (run.handle event).1.bucketDelete = (state.after run.app.client event).1 ∧
      run.issues event = (state.after run.app.client event).2 := by
  unfold BucketRun.issues BucketRun.handle BucketDeleteState.after
  cases event with
  | previewLoaded bucket result =>
      unfold handleBucketDeletePreviewLoaded BucketDeleteState.previewed
      simp only [h]
      split
      next => exact ⟨h, rfl⟩
      next => cases result <;> exact ⟨rfl, rfl⟩
  | confirmNameChanged value => simp [handleBucketDeleteConfirmNameChanged, h]
  | confirm =>
      have hcan : run.app.bucketDeleteCanStart = true ↔
          (state.deleting = false ∧ state.bucket ≠ []) ∧ state.Ready := by
        simp only [App.bucketDeleteCanStart, h, BucketDeleteState.Ready, Bool.and_eq_true,
          Bool.not_eq_true', decide_eq_true_eq]
        tauto
      by_cases hready : state.Ready
      · simp only [hcan, hready, and_true]
        split
        next => exact processNextBucketDeleteStep_eq h
        next => exact ⟨h, rfl⟩
      · simp only [hcan, hready, and_false, if_false, BucketDeleteState.proceed, ite_self]
        exact ⟨h, rfl⟩
  | stepFinished result =>
      cases result with
      | ok done =>
          cases done with
          | objectDeleted label =>
              simp only [handleBucketDeleteStepFinished, h]
              exact @processNextBucketDeleteStep_eq
                { run.app with bucketDelete := some (state.counted label) } _ rfl
          | bucketDeleted name =>
              simp only [handleBucketDeleteStepFinished, h, (filter_fetches _).1, and_true]
              split <;> rfl
      | error error =>
          simp only [handleBucketDeleteStepFinished, h]
          split
          next => exact ⟨rfl, (filter_fetches _).2⟩
          next => exact ⟨rfl, (filter_fetches _).1⟩

/-- Without a modal nothing happens. -/
theorem BucketRun.handle_closed (h : run.app.bucketDelete = none) (event : BucketEvent) :
    (run.handle event).1.bucketDelete = none ∧ run.issues event = [] := by
  unfold BucketRun.issues
  cases event with
  | previewLoaded bucket result =>
      simp [BucketRun.handle, handleBucketDeletePreviewLoaded, h]
  | confirmNameChanged value =>
      simp [BucketRun.handle, handleBucketDeleteConfirmNameChanged, h]
  | confirm => simp [BucketRun.handle, App.bucketDeleteCanStart, h]
  | stepFinished result => simp [BucketRun.handle, handleBucketDeleteStepFinished, h]

theorem BucketDeleteState.previewed_spec (state : BucketDeleteState) (bucket : Str)
    (result : Except String (List Str)) :
    (state.previewed bucket result).deleting = state.deleting ∧
      (state.previewLoading = false → (state.previewed bucket result).previewLoading = false) := by
  unfold BucketDeleteState.previewed
  split
  next => exact ⟨rfl, id⟩
  next => cases result <;> exact ⟨rfl, fun _ => rfl⟩

/-! ## What one event does to a run -/

theorem BucketRun.step_closed (hmodal : run.app.bucketDelete = none)
    (hidle : run.inFlight = []) (event : BucketEvent) :
    (run.step event).app.bucketDelete = none ∧ (run.step event).inFlight = [] ∧
      (run.step event).answered = run.answered := by
  obtain ⟨hclosed, hissues⟩ := BucketRun.handle_closed hmodal event
  refine ⟨hclosed, ?_, ?_⟩
  · cases event <;> simp [BucketRun.step, hissues, hidle]
  · cases event <;> simp [BucketRun.step, hidle]

/-- Only a result answers a step, and one that starts none leaves the others in flight. -/
theorem BucketRun.step_edited {event : BucketEvent}
    (hresult : ∀ result, event ≠ .stepFinished result) :
    (run.step event).answered = run.answered ∧
      (run.issues event = [] → (run.step event).inFlight = run.inFlight) := by
  cases event with
  | stepFinished result => exact absurd rfl (hresult result)
  | previewLoaded bucket result => simp +contextual [BucketRun.step]
  | confirmNameChanged value => simp +contextual [BucketRun.step]
  | confirm => simp +contextual [BucketRun.step]

/-- Confirming starts the next step of a modal that is ready, or changes nothing. -/
theorem BucketRun.confirm_open (hmodal : run.app.bucketDelete = some state)
    (hbusy : run.inFlight ≠ [] → state.deleting = true) :
    (state.Ready ∧
        (run.step .confirm).app.bucketDelete = some (state.proceed run.app.client).1 ∧
        (run.step .confirm).inFlight = (state.proceed run.app.client).2) ∨
      ((run.step .confirm).app.bucketDelete = some state ∧
        (run.step .confirm).inFlight = run.inFlight) := by
  obtain ⟨hafter, hissues⟩ := BucketRun.handle_open hmodal .confirm
  by_cases hstart : (state.deleting = false ∧ state.bucket ≠ []) ∧ state.Ready
  · obtain ⟨hidle, hready⟩ := hstart
    have hnone : run.inFlight = [] := by
      by_contra hsome
      rw [hbusy hsome] at hidle
      cases hidle.1
    rw [BucketDeleteState.after, if_pos hidle] at hafter hissues
    refine .inl ⟨hready, hafter, ?_⟩
    simp only [BucketRun.step, hnone, List.nil_append]
    exact hissues
  · have hsame : state.after run.app.client .confirm = (some state, []) := by
      by_cases hidle : state.deleting = false ∧ state.bucket ≠ []
      · have hready : ¬ state.Ready := fun hready => hstart ⟨hidle, hready⟩
        simp [BucketDeleteState.after, hidle, BucketDeleteState.proceed, hready]
      · exact if_neg hidle
    rw [hsame] at hafter hissues
    exact .inr ⟨hafter, (BucketRun.step_edited fun _ => BucketEvent.noConfusion).2 hissues⟩

/-- The result of the only step in flight makes room for the next one. -/
theorem BucketRun.inFlight_answered (hmodal : run.app.bucketDelete = some state)
    (hsingle : run.inFlight.length ≤ 1) (result : Except String BucketDeleteStepResult) :
    (run.step (.stepFinished result)).inFlight =
      (state.after run.app.client (.stepFinished result)).2 := by
  have htail : run.inFlight.tail = [] := by
    apply List.eq_nil_of_length_eq_zero
    rw [List.length_tail]
    omega
  simp only [BucketRun.step, htail, List.nil_append]
  exact (BucketRun.handle_open hmodal (.stepFinished result)).2

end

/-! ## Whether a step is in flight -/

/-- A step in flight is the only one, and was started by a modal that is deleting. -/
structure BucketRun.Steady (run : BucketRun) : Prop where
  closed : run.app.bucketDelete = none → run.inFlight = []
  started : ∀ state, run.app.bucketDelete = some state → run.inFlight ≠ [] →
    state.deleting = true ∧ state.previewLoading = false
  single : run.inFlight.length ≤ 1

/-- A modal that is deleting waits for one step. -/
def BucketRun.Moving (run : BucketRun) : Prop :=
  ∀ state, run.app.bucketDelete = some state → state.deleting = true → run.inFlight.length = 1

/-- When a key was deleted, the typed name is still that of the bucket. -/
def BucketRun.NameKept (run : BucketRun) : BucketEvent → Prop
  | .stepFinished (.ok (.objectDeleted _)) =>
      ∀ state, run.app.bucketDelete = some state → state.confirmName = state.bucket
  | _ => True

section

variable {run : BucketRun} {state : BucketDeleteState}

/-- A run with an open modal, told by the modal and the steps in flight. -/
theorem BucketRun.spec_open (hmodal : run.app.bucketDelete = some state) :
    (run.Steady ↔ (run.inFlight ≠ [] → state.deleting = true ∧ state.previewLoading = false) ∧
        run.inFlight.length ≤ 1) ∧
      (run.Moving ↔ (state.deleting = true → run.inFlight.length = 1)) := by
  have hsame : ∀ other, run.app.bucketDelete = some other → state = other :=
    fun other hother => Option.some.inj (hmodal.symm.trans hother)
  constructor
  · constructor
    · exact fun h => ⟨h.started state hmodal, h.single⟩
    · intro h
      refine ⟨?_, ?_, h.2⟩
      · intro hnone
        rw [hmodal] at hnone
        cases hnone
      · intro other hother
        rw [← hsame other hother]
        exact h.1
  · constructor
    · exact fun h => h state hmodal
    · intro h other hother
      rw [← hsame other hother]
      exact h

theorem BucketRun.spec_closed (hmodal : run.app.bucketDelete = none)
    (hidle : run.inFlight = []) : run.Steady ∧ run.Moving := by
  have hno : ∀ state, run.app.bucketDelete ≠ some state := by
    intro state hstate
    rw [hmodal] at hstate
    cases hstate
  refine ⟨⟨fun _ => hidle, fun state hstate => absurd hstate (hno state), ?_⟩,
    fun state hstate => absurd hstate (hno state)⟩
  rw [hidle]
  exact Nat.zero_le 1

/-- A modal that goes on with nothing in flight moves exactly if its name fits. -/
theorem BucketRun.spec_proceed {client : S3Client} (hloaded : state.previewLoading = false)
    (hmodal : run.app.bucketDelete = some (state.proceed client).1)
    (hflight : run.inFlight = (state.proceed client).2)
    (hidle : state.deleting = true ∨ state.Ready) :
    run.Steady ∧ (run.Moving ↔ state.confirmName = state.bucket) := by
  obtain ⟨hsteady, hmoving⟩ := BucketRun.spec_open hmodal
  rw [hsteady, hmoving, hflight]
  by_cases hready : state.Ready
  · rw [BucketDeleteState.proceed, if_pos hready]
    exact ⟨⟨fun _ => ⟨rfl, hloaded⟩, Nat.le_refl 1⟩, iff_of_true (fun _ => rfl) hready.2⟩
  · have hname : state.confirmName ≠ state.bucket := fun hname => hready ⟨hloaded, hname⟩
    have hdeleting := hidle.resolve_right hready
    rw [BucketDeleteState.proceed, if_neg hready]
    refine ⟨⟨fun hsome => absurd rfl hsome, Nat.zero_le 1⟩, iff_of_false ?_ hname⟩
    intro hmoves
    cases hmoves hdeleting

/-- Nothing changes for a modal that waits as it did. -/
theorem BucketRun.spec_waiting (h : run.Steady) (hmodal : run.app.bucketDelete = some state)
    {next : BucketRun} {after : BucketDeleteState} (hafter : next.app.bucketDelete = some after)
    (hflight : next.inFlight = run.inFlight) (hdeleting : after.deleting = state.deleting)
    (hloaded : state.previewLoading = false → after.previewLoading = false) :
    next.Steady ∧ (run.Moving → next.Moving) := by
  obtain ⟨hsteady, hmoving⟩ := BucketRun.spec_open hmodal
  obtain ⟨hsteady', hmoving'⟩ := BucketRun.spec_open hafter
  rw [hsteady] at h
  rw [hsteady', hmoving', hmoving, hflight, hdeleting]
  exact ⟨⟨fun hsome => ⟨(h.1 hsome).1, hloaded (h.1 hsome).2⟩, h.2⟩, id⟩

/-- The result of a step keeps the run moving exactly if the name is kept. -/
theorem BucketRun.spec_answered (h : run.Steady) (hmodal : run.app.bucketDelete = some state)
    (hflying : run.inFlight ≠ []) (result : Except String BucketDeleteStepResult) :
    (run.step (.stepFinished result)).Steady ∧
      ((run.step (.stepFinished result)).Moving ↔ run.NameKept (.stepFinished result)) := by
  obtain ⟨hdeleting, hloaded⟩ := h.started state hmodal hflying
  have hafter := (BucketRun.handle_open hmodal (.stepFinished result)).1
  have hflight := BucketRun.inFlight_answered hmodal h.single result
  cases result with
  | ok done =>
      cases done with
      | objectDeleted label =>
          obtain ⟨hsteady, hmoving⟩ := @BucketRun.spec_proceed
            (run.step (.stepFinished (.ok (.objectDeleted label)))) (state.counted label)
            run.app.client hloaded hafter hflight (.inl hdeleting)
          refine ⟨hsteady, hmoving.trans ?_⟩
          simp only [BucketRun.NameKept, hmodal, Option.some.injEq, forall_eq']
          exact Iff.rfl
      | bucketDeleted name =>
          obtain ⟨hsteady, hmoving⟩ := @BucketRun.spec_closed
            (run.step (.stepFinished (.ok (.bucketDeleted name)))) hafter hflight
          exact ⟨hsteady, iff_of_true hmoving trivial⟩
  | error error =>
      obtain ⟨hsteady, hmoving⟩ := @BucketRun.spec_open
        (run.step (.stepFinished (.error error))) (state.stopped error) hafter
      rw [hsteady, hmoving, hflight]
      refine ⟨⟨fun hsome => absurd rfl hsome, Nat.zero_le 1⟩, iff_of_true ?_ trivial⟩
      intro hflag
      cases hflag

/-- A single event keeps the run moving exactly if the name is kept. -/
theorem BucketRun.spec_step (h : run.Steady) {event : BucketEvent}
    (hpossible : run.Possible event) :
    (run.step event).Steady ∧
      (run.Moving → ((run.step event).Moving ↔ run.NameKept event)) := by
  cases hmodal : run.app.bucketDelete with
  | none =>
      obtain ⟨hclosed, hidle, -⟩ := BucketRun.step_closed hmodal (h.closed hmodal) event
      obtain ⟨hsteady, hmoving⟩ := BucketRun.spec_closed hclosed hidle
      refine ⟨hsteady, fun _ => iff_of_true hmoving ?_⟩
      unfold BucketRun.NameKept
      split
      next =>
        intro state hstate
        rw [hmodal] at hstate
        cases hstate
      next => trivial
  | some state =>
      obtain ⟨hafter, hissues⟩ := BucketRun.handle_open hmodal event
      cases event with
      | previewLoaded bucket result =>
          have hflight := (BucketRun.step_edited fun _ => BucketEvent.noConfusion).2 hissues
          obtain ⟨hdeleting, hloaded⟩ := state.previewed_spec bucket result
          obtain ⟨hsteady, hmoving⟩ :=
            BucketRun.spec_waiting h hmodal hafter hflight hdeleting hloaded
          exact ⟨hsteady, fun hmoves => iff_of_true (hmoving hmoves) trivial⟩
      | confirmNameChanged value =>
          have hflight := (BucketRun.step_edited fun _ => BucketEvent.noConfusion).2 hissues
          obtain ⟨hsteady, hmoving⟩ := @BucketRun.spec_waiting run state h hmodal
            (run.step (.confirmNameChanged value)) { state with confirmName := value } hafter
            hflight rfl id
          exact ⟨hsteady, fun hmoves => iff_of_true (hmoving hmoves) trivial⟩
      | confirm =>
          rcases BucketRun.confirm_open hmodal fun hsome => (h.started state hmodal hsome).1 with
            ⟨hready, hafter, hflight⟩ | ⟨hafter, hflight⟩
          · obtain ⟨hsteady, hmoving⟩ :=
              BucketRun.spec_proceed hready.1 hafter hflight (.inr hready)
            exact ⟨hsteady, fun _ => hmoving.trans (iff_of_true hready.2 trivial)⟩
          · obtain ⟨hsteady, hmoving⟩ := BucketRun.spec_waiting h hmodal hafter hflight rfl id
            exact ⟨hsteady, fun hmoves => iff_of_true (hmoving hmoves) trivial⟩
      | stepFinished result =>
          obtain ⟨hsteady, hmoving⟩ := BucketRun.spec_answered h hmodal hpossible result
          exact ⟨hsteady, fun _ => hmoving⟩

end

/-- A modal that is deleting has a step in flight, in every state of a run, exactly if
the typed name is that of the bucket whenever a key was deleted. -/
theorem bucketDelete_moving_iff {app : App}
    (hidle : ∀ state, app.bucketDelete = some state → state.deleting = false)
    {events : List BucketEvent}
    (hpossible : Along BucketRun.step BucketRun.Possible (.start app) events) :
    (∀ earlier, earlier <+: events → (run BucketRun.step (.start app) earlier).Moving) ↔
      Along BucketRun.step BucketRun.NameKept (.start app) events := by
  have hsteady : (BucketRun.start app).Steady :=
    ⟨fun _ => rfl, fun _ _ hsome => absurd rfl hsome, Nat.zero_le 1⟩
  have hmoving : (BucketRun.start app).Moving := by
    intro state hstate hdeleting
    rw [hidle state hstate] at hdeleting
    cases hdeleting
  apply forall_prefix_iff_along BucketRun.Steady BucketRun.Moving ?_ ?_ hsteady hmoving hpossible
  · intro run event hsteady hpossible
    exact (BucketRun.spec_step hsteady hpossible).1
  · intro run event hsteady hpossible
    exact (BucketRun.spec_step hsteady hpossible).2

/-- An empty application with a bucket selected. -/
def photosSelected : App :=
  { (App.new [] ⟨[], [], false, false⟩ ⟨none, none⟩).1 with
    selection := .bucket "photos".toList }

/-- The modal is opened, its preview arrives, the name is typed and the delete begins. -/
def photosConfirmed : List BucketEvent :=
  [.previewLoaded "photos".toList (.ok ["a".toList, "b".toList]),
    .confirmNameChanged "photos".toList, .confirm]

/-- The first key is deleted, too. -/
def photosDeleting : List BucketEvent :=
  photosConfirmed ++ [.stepFinished (.ok (.objectDeleted "a".toList))]

theorem bucketDelete_moving_iff_photos :
    (∀ earlier, earlier <+: photosDeleting →
        (run BucketRun.step (.start (handleOpenDeleteBucketModal photosSelected).1)
          earlier).Moving) ↔
      Along BucketRun.step BucketRun.NameKept
        (.start (handleOpenDeleteBucketModal photosSelected).1) photosDeleting := by
  apply bucketDelete_moving_iff
  · intro state hstate
    obtain rfl := Option.some.inj hstate
    rfl
  · refine ⟨trivial, trivial, trivial, ?_, trivial⟩
    exact List.cons_ne_nil _ _

/-- The name is edited while the first key is being deleted: the modal is left deleting
with nothing in flight. -/
theorem edited_name_stuck :
    ¬ ∀ (app : App), (∀ state, app.bucketDelete = some state → state.deleting = false) →
      ∀ events, Along BucketRun.step BucketRun.Possible (.start app) events →
        (run BucketRun.step (.start app) events).Moving := by
  intro h
  have hmoving := h (handleOpenDeleteBucketModal photosSelected).1 ?_
    (photosConfirmed ++ [.confirmNameChanged "photo".toList,
      .stepFinished (.ok (.objectDeleted "a".toList))]) ?_
  · have hstuck : (run BucketRun.step (.start (handleOpenDeleteBucketModal photosSelected).1)
        (photosConfirmed ++ [.confirmNameChanged "photo".toList,
          .stepFinished (.ok (.objectDeleted "a".toList))])).app.bucketDelete.map
            BucketDeleteState.deleting = some true := by decide
    obtain ⟨state, hstate, hdeleting⟩ := Option.map_eq_some_iff.mp hstuck
    have hone := hmoving state hstate hdeleting
    revert hone
    decide
  · intro state hstate
    obtain rfl := Option.some.inj hstate
    rfl
  · refine ⟨trivial, trivial, trivial, trivial, ?_, trivial⟩
    exact List.cons_ne_nil _ _

/-! ## The order of the deletes -/

/-- The keys that were deleted, with their bucket, in the order of their answers. -/
def BucketRun.deletions (run : BucketRun) : List (Str × Str) :=
  run.answered.filterMap fun step =>
    match step with
    | (.deleteBucketObject _ bucket key, .ok _) => some (bucket, key)
    | _ => none

/-- A step ends with its own message, and the preview is not loaded again. -/
def BucketRun.Answers (run : BucketRun) : BucketEvent → Prop
  | .previewLoaded _ _ => False
  | .stepFinished result =>
      ∃ task rest replies, run.inFlight = task :: rest ∧
        task.message replies = some (.bucketDeleteStepFinished result)
  | _ => True

/-- A previewed modal before its first step. -/
structure BucketDeleteState.Previewed (state : BucketDeleteState) : Prop where
  loaded : state.previewLoading = false
  nextIndex_eq : state.nextIndex = 0
  deletedObjects_eq : state.deletedObjects = 0
  idle : state.deleting = false

/-- The modal has deleted the keys before its cursor, in their order, and counts them. -/
structure BucketRun.UpTo (bucket : Str) (keys : List Str) (state : BucketDeleteState)
    (run : BucketRun) : Prop where
  modal_eq : run.app.bucketDelete = some state
  bucket_eq : state.bucket = bucket
  keys_eq : state.objectKeys = keys
  loaded : state.previewLoading = false
  deletions_eq : run.deletions = (keys.take state.nextIndex).map fun key => (bucket, key)
  nextIndex_le : state.nextIndex ≤ keys.length
  counted : state.deletedObjects = state.nextIndex
  flight : run.inFlight = [] ∨
    state.deleting = true ∧ ∃ client, run.inFlight = [state.nextStep client]

/-- The bucket is gone, after all of its previewed keys. -/
structure BucketRun.Gone (bucket : Str) (keys : List Str) (run : BucketRun) : Prop where
  modal_eq : run.app.bucketDelete = none
  deletions_eq : run.deletions = keys.map fun key => (bucket, key)
  idle : run.inFlight = []

def BucketRun.InOrder (bucket : Str) (keys : List Str) (run : BucketRun) : Prop :=
  (∃ state, run.UpTo bucket keys state) ∨ run.Gone bucket keys

section

variable {bucket : Str} {keys : List Str} {run : BucketRun} {state : BucketDeleteState}

/-- The modal goes on from its cursor. -/
theorem BucketRun.upTo_proceed {client : S3Client}
    (hmodal : run.app.bucketDelete = some (state.proceed client).1)
    (hflight : run.inFlight = (state.proceed client).2) (hbucket : state.bucket = bucket)
    (hkeys : state.objectKeys = keys) (hloaded : state.previewLoading = false)
    (hdeletions : run.deletions = (keys.take state.nextIndex).map fun key => (bucket, key))
    (hle : state.nextIndex ≤ keys.length) (hcounted : state.deletedObjects = state.nextIndex) :
    run.InOrder bucket keys := by
  by_cases hready : state.Ready
  · rw [BucketDeleteState.proceed, if_pos hready] at hmodal hflight
    exact .inl ⟨_, hmodal, hbucket, hkeys, hloaded, hdeletions, hle, hcounted,
      .inr ⟨rfl, client, hflight⟩⟩
  · rw [BucketDeleteState.proceed, if_neg hready] at hmodal hflight
    exact .inl ⟨_, hmodal, hbucket, hkeys, hloaded, hdeletions, hle, hcounted, .inl hflight⟩

/-- What the step at the cursor can answer. -/
theorem BucketDeleteState.message_nextStep {client : S3Client} {replies : Replies}
    {result : Except String BucketDeleteStepResult}
    (h : (state.nextStep client).message replies = some (.bucketDeleteStepFinished result)) :
    (∃ key, state.objectKeys[state.nextIndex]? = some key ∧
        state.nextStep client = .deleteBucketObject client state.bucket key ∧
        result = .ok (.objectDeleted key)) ∨
      (state.objectKeys[state.nextIndex]? = none ∧
        state.nextStep client = .deleteBucket client state.bucket ∧
        result = .ok (.bucketDeleted state.bucket)) ∨
      ∃ error, result = .error error := by
  unfold BucketDeleteState.nextStep at h ⊢
  cases hkey : state.objectKeys[state.nextIndex]? with
  | some key =>
      simp only [hkey, AppTask.message, Option.some.injEq, Message.bucketDeleteStepFinished.injEq]
        at h
      cases hdone : replies.done with
      | ok done =>
          rw [hdone] at h
          exact .inl ⟨key, rfl, rfl, h.symm⟩
      | error error =>
          rw [hdone] at h
          exact .inr (.inr ⟨error, h.symm⟩)
  | none =>
      simp only [hkey, AppTask.message, Option.some.injEq, Message.bucketDeleteStepFinished.injEq]
        at h
      cases hdone : replies.done with
      | ok done =>
          rw [hdone] at h
          exact .inr (.inl ⟨rfl, rfl, h.symm⟩)
      | error error =>
          rw [hdone] at h
          exact .inr (.inr ⟨error, h.symm⟩)

/-- Typing the name moves no cursor. -/
theorem BucketRun.UpTo.waiting (h : run.UpTo bucket keys state) {next : BucketRun} {name : Str}
    (hmodal : next.app.bucketDelete = some { state with confirmName := name })
    (hflight : next.inFlight = run.inFlight) (hanswered : next.answered = run.answered) :
    next.UpTo bucket keys { state with confirmName := name } := by
  refine ⟨hmodal, h.bucket_eq, h.keys_eq, h.loaded, ?_, h.nextIndex_le, h.counted, ?_⟩
  · rw [BucketRun.deletions, hanswered]
    exact h.deletions_eq
  · rw [hflight]
    exact h.flight

/-- The result of the step at the cursor moves the cursor, ends the run or stops it. -/
theorem BucketRun.UpTo.answered_inOrder (h : run.UpTo bucket keys state)
    {result : Except String BucketDeleteStepResult}
    (hanswers : run.Answers (.stepFinished result)) :
    (run.step (.stepFinished result)).InOrder bucket keys := by
  obtain ⟨task, rest, replies, hwaiting, hmessage⟩ := hanswers
  obtain ⟨-, client, hone⟩ : state.deleting = true ∧
      ∃ client, run.inFlight = [state.nextStep client] := by
    rcases h.flight with hnone | hsome
    · rw [hwaiting] at hnone
      cases hnone
    · exact hsome
  obtain ⟨rfl, rfl⟩ : state.nextStep client = task ∧ [] = rest := by
    rw [hone, List.cons.injEq] at hwaiting
    exact hwaiting
  have hafter := (BucketRun.handle_open h.modal_eq (.stepFinished result)).1
  have hsingle : run.inFlight.length ≤ 1 := by
    rw [hone]
    exact Nat.le_refl 1
  have hflight := BucketRun.inFlight_answered h.modal_eq hsingle result
  have hanswered : (run.step (.stepFinished result)).answered =
      run.answered ++ [(state.nextStep client, result)] := by
    simp [BucketRun.step, hone]
  have hbefore := h.deletions_eq
  rcases BucketDeleteState.message_nextStep hmessage with
    ⟨key, hkey, htask, rfl⟩ | ⟨hend, htask, rfl⟩ | ⟨error, rfl⟩
  · rw [h.keys_eq] at hkey
    obtain ⟨hlt, -⟩ := List.getElem?_eq_some_iff.mp hkey
    have hdeletions : (run.step (.stepFinished (.ok (.objectDeleted key)))).deletions =
        (keys.take (state.nextIndex + 1)).map fun key => (bucket, key) := by
      rw [List.take_add_one, hkey, List.map_append, ← hbefore, ← h.bucket_eq]
      simp [BucketRun.deletions, hanswered, htask]
    exact BucketRun.upTo_proceed hafter hflight h.bucket_eq h.keys_eq h.loaded hdeletions hlt
      (congrArg (· + 1) h.counted)
  · rw [h.keys_eq, List.getElem?_eq_none_iff] at hend
    rw [List.take_of_length_le hend] at hbefore
    refine .inr ⟨hafter, ?_, hflight⟩
    rw [← hbefore]
    simp [BucketRun.deletions, hanswered, htask]
  · refine .inl ⟨_, hafter, h.bucket_eq, h.keys_eq, h.loaded, ?_, h.nextIndex_le, h.counted,
      .inl hflight⟩
    show _ = (keys.take state.nextIndex).map fun key => (bucket, key)
    rw [← hbefore]
    simp [BucketRun.deletions, hanswered]

theorem BucketRun.InOrder.step (h : run.InOrder bucket keys) {event : BucketEvent}
    (hanswers : run.Answers event) : (run.step event).InOrder bucket keys := by
  rcases h with ⟨state, hupTo⟩ | hgone
  · cases event with
    | previewLoaded name result => exact absurd hanswers id
    | confirmNameChanged value =>
        obtain ⟨hafter, hissues⟩ :=
          BucketRun.handle_open hupTo.modal_eq (.confirmNameChanged value)
        obtain ⟨hanswered, hflight⟩ := @BucketRun.step_edited run (.confirmNameChanged value)
          fun _ => BucketEvent.noConfusion
        exact .inl ⟨_, hupTo.waiting hafter (hflight hissues) hanswered⟩
    | confirm =>
        obtain ⟨hanswered, -⟩ := @BucketRun.step_edited run .confirm
          fun _ => BucketEvent.noConfusion
        have hbusy : run.inFlight ≠ [] → state.deleting = true := by
          intro hsome
          exact (hupTo.flight.resolve_left hsome).1
        rcases BucketRun.confirm_open hupTo.modal_eq hbusy with
          ⟨-, hafter, hflight⟩ | ⟨hafter, hflight⟩
        · have hdeletions : (run.step .confirm).deletions = run.deletions := by
            rw [BucketRun.deletions, hanswered, BucketRun.deletions]
          exact BucketRun.upTo_proceed hafter hflight hupTo.bucket_eq hupTo.keys_eq hupTo.loaded
            (hdeletions.trans hupTo.deletions_eq) hupTo.nextIndex_le hupTo.counted
        · exact .inl ⟨state, hupTo.waiting hafter hflight hanswered⟩
    | stepFinished result => exact hupTo.answered_inOrder hanswers
  · obtain ⟨hclosed, hidle, hanswered⟩ := BucketRun.step_closed hgone.modal_eq hgone.idle event
    refine .inr ⟨hclosed, ?_, hidle⟩
    rw [BucketRun.deletions, hanswered]
    exact hgone.deletions_eq

theorem BucketDeleteState.mem_proceed {client : S3Client} {task : AppTask}
    (h : task ∈ (state.proceed client).2) :
    (state.proceed client).1.confirmName = (state.proceed client).1.bucket ∧
      task = (state.proceed client).1.nextStep client := by
  by_cases hready : state.Ready
  · rw [BucketDeleteState.proceed, if_pos hready] at h ⊢
    exact ⟨hready.2, List.mem_singleton.mp h⟩
  · rw [BucketDeleteState.proceed, if_neg hready] at h
    cases h

/-- A step is started by a modal whose name fits, at the cursor it then has. -/
theorem BucketRun.mem_issues {event : BucketEvent} {task : AppTask}
    (h : task ∈ run.issues event) :
    ∃ state client, (run.step event).app.bucketDelete = some state ∧
      state.confirmName = state.bucket ∧ task = state.nextStep client := by
  cases hmodal : run.app.bucketDelete with
  | none =>
      rw [(BucketRun.handle_closed hmodal event).2] at h
      cases h
  | some state =>
      obtain ⟨hafter, hissues⟩ := BucketRun.handle_open hmodal event
      rw [hissues] at h
      cases event with
      | previewLoaded name result => cases h
      | confirmNameChanged value => cases h
      | confirm =>
          by_cases hidle : state.deleting = false ∧ state.bucket ≠ []
          · rw [BucketDeleteState.after, if_pos hidle] at h hafter
            exact ⟨_, _, hafter, BucketDeleteState.mem_proceed h⟩
          · rw [BucketDeleteState.after, if_neg hidle] at h
            cases h
      | stepFinished result =>
          cases result with
          | ok done =>
              cases done with
              | objectDeleted label => exact ⟨_, _, hafter, BucketDeleteState.mem_proceed h⟩
              | bucketDeleted name => cases h
          | error error => cases h

end

/-- The keys before the cursor were deleted, in the order of the preview and each once;
the bucket is deleted only after all of them, under its confirmed name. -/
structure BucketRun.Orderly (bucket : Str) (keys : List Str) (run : BucketRun) : Prop where
  cursor : ∀ state, run.app.bucketDelete = some state →
    run.deletions = (keys.take state.nextIndex).map (fun key => (bucket, key)) ∧
      state.nextIndex = state.deletedObjects ∧ state.deletedObjects = run.deletions.length
  gone : run.app.bucketDelete = none → run.deletions = keys.map fun key => (bucket, key)
  last : ∀ event, run.Answers event → ∀ client name,
    AppTask.deleteBucket client name ∈ run.issues event →
      name = bucket ∧ (run.step event).deletions = keys.map (fun key => (bucket, key)) ∧
        ∃ state, (run.step event).app.bucketDelete = some state ∧ state.confirmName = bucket

/-- A bucket delete goes through its preview in order, whatever fails, is tried again or
is typed in between. -/
theorem bucketDelete_in_order {app : App} {state : BucketDeleteState}
    (hmodal : app.bucketDelete = some state) (hpreviewed : state.Previewed)
    {events : List BucketEvent}
    (hanswers : Along BucketRun.step BucketRun.Answers (.start app) events) :
    (run BucketRun.step (.start app) events).Orderly state.bucket state.objectKeys := by
  have hstart : (BucketRun.start app).InOrder state.bucket state.objectKeys := by
    refine .inl ⟨state, hmodal, rfl, rfl, hpreviewed.loaded, ?_, ?_, ?_, .inl rfl⟩
    · rw [hpreviewed.nextIndex_eq]
      rfl
    · rw [hpreviewed.nextIndex_eq]
      exact Nat.zero_le _
    · rw [hpreviewed.nextIndex_eq, hpreviewed.deletedObjects_eq]
  have hinOrder := run_invariant (BucketRun.InOrder state.bucket state.objectKeys)
    (fun _ _ h hanswers => h.step hanswers) hstart hanswers
  constructor
  · intro current hcurrent
    rcases hinOrder with ⟨found, hupTo⟩ | hgone
    · obtain rfl : found = current := Option.some.inj (hupTo.modal_eq.symm.trans hcurrent)
      have hle := hupTo.nextIndex_le
      refine ⟨hupTo.deletions_eq, hupTo.counted.symm, ?_⟩
      rw [hupTo.deletions_eq, List.length_map, List.length_take, hupTo.counted]
      omega
    · rw [hgone.modal_eq] at hcurrent
      cases hcurrent
  · intro hclosed
    rcases hinOrder with ⟨found, hupTo⟩ | hgone
    · rw [hupTo.modal_eq] at hclosed
      cases hclosed
    · exact hgone.deletions_eq
  · intro event hevent client name hissued
    obtain ⟨found, other, hfound, hname, htask⟩ := BucketRun.mem_issues hissued
    rcases hinOrder.step hevent with ⟨current, hupTo⟩ | hgone
    · obtain rfl : current = found := Option.some.inj (hupTo.modal_eq.symm.trans hfound)
      unfold BucketDeleteState.nextStep at htask
      cases hkey : current.objectKeys[current.nextIndex]? with
      | some key =>
          rw [hkey] at htask
          cases htask
      | none =>
          simp only [hkey, AppTask.deleteBucket.injEq] at htask
          rw [hupTo.keys_eq, List.getElem?_eq_none_iff] at hkey
          have hdeletions := hupTo.deletions_eq
          rw [List.take_of_length_le hkey] at hdeletions
          refine ⟨htask.2.trans hupTo.bucket_eq, hdeletions, current, hfound, ?_⟩
          exact hname.trans hupTo.bucket_eq
    · rw [hgone.modal_eq] at hfound
      cases hfound

/-- Two keys were previewed and the name is typed. -/
def photosPreviewed : BucketDeleteState where
  bucket := "photos".toList
  confirmName := "photos".toList
  previewLoading := false
  objectKeys := ["a".toList, "b".toList]
  totalObjects := 2
  deletedObjects := 0
  nextIndex := 0
  deleting := false
  summary := none

/-- The answer to a step, when nothing else is asked for. -/
def stepReplies (done : Except String Unit) : Replies where
  objects := .ok []
  buckets := .ok []
  keys := .ok []
  items := .ok []
  step := .error ""
  deleted := .ok 0
  done := done

/-- The first delete fails and is tried again. -/
theorem bucketDelete_in_order_retry :
    (run BucketRun.step (.start { photosSelected with bucketDelete := some photosPreviewed })
      [.confirm, .stepFinished (.error "timeout"), .confirm,
        .stepFinished (.ok (.objectDeleted "a".toList))]).Orderly
      "photos".toList ["a".toList, "b".toList] := by
  have hpreviewed : photosPreviewed.Previewed := ⟨rfl, rfl, rfl, rfl⟩
  apply @bucketDelete_in_order { photosSelected with bucketDelete := some photosPreviewed }
    photosPreviewed rfl hpreviewed
  refine ⟨trivial, ?_, trivial, ?_, trivial⟩
  · exact ⟨_, _, stepReplies (.error "timeout"), rfl, rfl⟩
  · exact ⟨_, _, stepReplies (.ok ()), rfl, rfl⟩

end AbixioUi
