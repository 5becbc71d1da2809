import AbixioUi.App.TransferRun

/-! # Overwriting with consent

A step is started under the policy of the modal, or to overwrite the item of a conflict
that the user answered. It overwrites nothing else, as long as its existence check is
answered: a check that fails passes for one that finds nothing.
-/

namespace AbixioUi

open Foundation

/-! ## What a step is started with -/

/-- A step gets the arguments it was started for: those of the modal, or those of an
answer that overwrites, which are never a move. -/
structure ModalTask.Started (mode : TransferMode) (request : ModalTask) : Prop where
  arguments : ∀ sourceClient destinationClient item overwritePolicy isMove,
    request.task = .runTransfer sourceClient destinationClient item overwritePolicy isMove →
      request.item = some item ∧
        (request.overwrites = true → overwritePolicy = .overwriteAll ∧ isMove = false) ∧
        (request.overwrites = false → overwritePolicy = request.policy ∧
          isMove = decide (mode = .moveObject))
  client : ∀ sourceClient destinationClient item overwritePolicy isMove id bucket key,
    request.task = .runTransfer sourceClient destinationClient item overwritePolicy isMove →
      item.destination = .s3 id bucket key → ∃ client, destinationClient = some client

/-- The modal is in this mode, and its steps were started in it. -/
structure TransferModal.Starts {σ : Type} (mode : TransferMode) (modal : TransferModal σ) :
    Prop where
  own : modal.Own
  inMode : ∀ transfer, modal.app.transfer = some transfer → transfer.mode = mode
  started : ∀ request ∈ modal.inFlight, request.Started mode

section Starting

variable {platform : Platform} {surroundings : Surroundings} {app : App}
  {transfer next after : TransferState} {tasks : List AppTask} {message : Message}
  {mode : TransferMode}

/-- The arguments of a step that the modal starts. -/
theorem transferStepTask_eq {item other : TransferItem}
    {overwritePolicy overwritePolicy' : OverwritePolicy} {isMove isMove' : Bool}
    {sourceClient : S3Client} {destinationClient : Option S3Client}
    (h : app.transferStepTask surroundings item overwritePolicy isMove =
      .runTransfer sourceClient destinationClient other overwritePolicy' isMove') :
    other = item ∧ overwritePolicy' = overwritePolicy ∧ isMove' = isMove ∧
      sourceClient = app.client ∧
      app.endpointClient surroundings item.destination = .ok destinationClient := by
  unfold App.transferStepTask at h
  split at h
  next client hclient =>
    simp only [AppTask.runTransfer.injEq] at h
    obtain ⟨rfl, rfl, rfl, rfl, rfl⟩ := h
    exact ⟨rfl, rfl, rfl, rfl, hclient⟩
  next => cases h

/-- An S3 destination has a client. -/
theorem endpointClient_s3 {id bucket key : Str} {destinationClient : Option S3Client}
    (h : app.endpointClient surroundings (.s3 id bucket key) = .ok destinationClient) :
    ∃ client, destinationClient = some client ∧
      app.makeClientForConnection surroundings id = .ok client := by
  simp only [App.endpointClient] at h
  cases hclient : app.makeClientForConnection surroundings id with
  | error error =>
      rw [hclient] at h
      cases h
  | ok client =>
      rw [hclient] at h
      exact ⟨client, (Except.ok.inj h).symm, rfl⟩

theorem Started.of_other {request : ModalTask}
    (h : ∀ sourceClient destinationClient item overwritePolicy isMove,
      request.task ≠ .runTransfer sourceClient destinationClient item overwritePolicy isMove) :
    request.Started mode :=
  ⟨fun _ _ _ _ _ htask => absurd htask (h _ _ _ _ _),
    fun _ _ _ _ _ _ _ _ htask => absurd htask (h _ _ _ _ _)⟩

/-- A step as the modal starts it. -/
theorem Started.of_step {request : ModalTask} {item : TransferItem}
    {overwritePolicy : OverwritePolicy} {isMove : Bool}
    (htask : request.task = app.transferStepTask surroundings item overwritePolicy isMove)
    (hitem : request.item = some item)
    (hanswer : request.overwrites = true → overwritePolicy = .overwriteAll ∧ isMove = false)
    (hmodal : request.overwrites = false → overwritePolicy = request.policy ∧
      isMove = decide (mode = .moveObject)) : request.Started mode := by
  constructor
  · intro sourceClient destinationClient other overwritePolicy' isMove' hother
    rw [htask] at hother
    obtain ⟨rfl, rfl, rfl, -, -⟩ := transferStepTask_eq hother
    exact ⟨hitem, hanswer, hmodal⟩
  · intro sourceClient destinationClient other overwritePolicy' isMove' id bucket key hother
      hdestination
    rw [htask] at hother
    obtain ⟨rfl, -, -, -, hclient⟩ := transferStepTask_eq hother
    rw [hdestination] at hclient
    obtain ⟨client, hsome, -⟩ := endpointClient_s3 hclient
    exact ⟨client, hsome⟩

theorem Proceeds.startsSteps {before app' : App}
    (h : Proceeds platform surroundings app next after tasks)
    (hafter : app'.transfer = some after) (hmessage : message.overwrites = false)
    (hmode : next.mode = mode) :
    ∀ request ∈ modalTasks before app' message tasks, request.Started mode := by
  intro request hrequest
  cases h with
  | step item hitem =>
      simp only [modalTasks, List.map_cons, List.map_nil, List.mem_singleton, hmessage,
        Bool.false_eq_true, if_false, hafter, Option.bind_some, hitem] at hrequest
      subst hrequest
      refine Started.of_step rfl rfl (fun h => by cases h) fun _ => ⟨rfl, ?_⟩
      rw [hmode]
  | done tasks _ htasks =>
      obtain ⟨client, bucket, keyPrefix, htask⟩ := htasks _ (mem_modalTasks hrequest)
      refine Started.of_other fun _ _ _ _ _ => ?_
      rw [htask]
      exact nofun

/-- The steps a message starts. -/
theorem ModalMove.startsSteps {before app' : App}
    (h : ModalMove platform surroundings app transfer message after tasks)
    (hbefore : before.transfer = some transfer) (hafter : app'.transfer = some after)
    (hmode : transfer.mode = mode) :
    ∀ request ∈ modalTasks before app' message tasks, request.Started mode := by
  intro request hrequest
  have htask := mem_modalTasks hrequest
  cases h with
  | edited _ _ _ _ _ _ _ _ _ _ htasks =>
      obtain ⟨client, hfetch⟩ := htasks _ htask
      refine Started.of_other fun _ _ _ _ _ => ?_
      rw [hfetch]
      exact nofun
  | started hcan =>
      refine Started.of_other fun _ _ _ _ _ => ?_
      rw [List.mem_singleton.mp htask]
      unfold TransferState.prepareTask
      split <;> exact nofun
  | prepared _ _ _ _ hproceeds => exact hproceeds.startsSteps hafter rfl hmode request hrequest
  | finished _ _ _ _ _ _ hproceeds => exact hproceeds.startsSteps hafter rfl hmode request hrequest
  | skipped _ hskips _ _ _ _ _ hproceeds =>
      exact hproceeds.startsSteps hafter (overwrites_of_skips hskips) hmode request hrequest
  | overwritten _ hoverwrites item hpending overwritePolicy =>
      simp only [modalTasks, List.map_cons, List.map_nil, List.mem_singleton, hoverwrites,
        if_true, hbefore, Option.bind_some, hpending] at hrequest
      subst hrequest
      exact Started.of_step rfl rfl (fun _ => ⟨rfl, rfl⟩) fun h => by cases h
  | ignored _ _ | unprepared _ | empty | conflict _ => cases htask

end Starting

section Modals

variable {σ : Type} {platform : Platform} {network : Network σ} {modal : TransferModal σ}
  {mode : TransferMode}

theorem TransferModal.Starts.step [DecidableEq σ] (h : modal.Starts mode) (event : ModalEvent σ) :
    (modal.step platform network event).Starts mode := by
  have hown := @TransferModal.Own.step σ _ platform network modal h.own event
  cases @modal_turn σ _ platform network modal h.own event with
  | still htransfer hinFlight =>
      refine ⟨hown, fun transfer hafter => ?_, fun request hrequest => ?_⟩
      · rw [htransfer] at hafter
        exact h.inMode transfer hafter
      · exact h.started request (hinFlight request hrequest)
  | heard surroundings message transfer next tasks _ htransfer hmove hnext hinFlight =>
      have hmode := h.inMode transfer htransfer
      refine ⟨hown, fun after hafter => ?_, fun request hrequest => ?_⟩
      · obtain rfl : next = after := Option.some.inj (hnext.symm.trans hafter)
        rw [hmove.sameSource.mode]
        exact hmode
      · rcases hinFlight request hrequest with hold | hnew
        · exact h.started request hold
        · exact hmove.startsSteps htransfer hnext hmode request hnew

theorem TransferModal.Opened.starts (h : modal.Opened) : ∃ mode, modal.Starts mode := by
  obtain ⟨fresh, hfresh, -⟩ := h.fresh
  refine ⟨fresh.mode, h.own, fun transfer htransfer => ?_, fun request hrequest => ?_⟩
  · rw [Option.some.inj (hfresh.symm.trans htransfer)]
  · obtain ⟨client, hclient⟩ := h.inFlight request hrequest
    refine Started.of_other fun _ _ _ _ _ => ?_
    rw [hclient]
    exact nofun

theorem TransferModal.Opened.startsIn (h : modal.Opened)
    (hmode : ∃ transfer, modal.app.transfer = some transfer ∧ transfer.mode = mode) :
    modal.Starts mode := by
  obtain ⟨transfer, htransfer, rfl⟩ := hmode
  obtain ⟨mode, hstarts⟩ := h.starts
  rw [hstarts.inMode transfer htransfer]
  exact hstarts

end Modals

/-! ## Overwriting -/

/-- Where an item goes, for the client of its destination. -/
def TransferItem.destinationPlace {σ : Type} (network : Network σ)
    (destinationClient : Option S3Client) (item : TransferItem) : Option (Place σ) :=
  match item.destination with
  | .s3 _ bucket key =>
      destinationClient.map fun client => .object (client.server network) bucket key
  | .local path => some (.file path)

/-- Something was there, and a request wrote onto it. -/
def Overwritten {σ : Type} (network : Network σ) (storage : Stored σ) (place : Place σ)
    (journal : List (TransferRequest × Bool)) : Prop :=
  (storage.contents place).isSome = true ∧
    ∃ entry ∈ journal, entry.1.writes network = some place

section Consent

variable {σ : Type} {platform : Platform} {network : Network σ} {verdicts : TransferVerdicts}

/-- An answered check finds what is there. -/
theorem findsDestination_of_present {storage : Stored σ} {destinationClient : Option S3Client}
    {item : TransferItem} {place : Place σ}
    (hplace : item.destinationPlace network destinationClient = some place)
    (hcheck : verdicts.check = .served) (hpresent : (storage.contents place).isSome = true) :
    findsDestination network verdicts storage destinationClient item.destination = true := by
  unfold TransferItem.destinationPlace at hplace
  cases hdestination : item.destination with
  | s3 id bucket key =>
      simp only [hdestination, Option.map_eq_some_iff] at hplace
      obtain ⟨client, rfl, rfl⟩ := hplace
      simp [findsDestination, findsObject, hcheck, hpresent]
  | «local» path =>
      simp only [hdestination, Option.some.injEq] at hplace
      subst hplace
      simp [findsDestination, findsPath, hcheck, hpresent]

variable [DecidableEq σ] (platform) (network)

/-- Whenever the event ends a step that overwrites what was at its item's destination, the
step was not under the policy to skip, and the policy when it was started was to
overwrite, or it was started by the answer to overwrite that very item. -/
def OverwritesWithConsent (t : Transition (TransferModal σ) (ModalEvent σ)) : Prop :=
  match t.event with
  | .finish _ index _ verdicts =>
      ∀ request, t.before.inFlight[index]? = some request →
      ∀ sourceClient destinationClient item overwritePolicy isMove,
      request.task = .runTransfer sourceClient destinationClient item overwritePolicy isMove →
      ∀ place, item.destinationPlace network destinationClient = some place →
      Overwritten network t.before.storage place
        (runTransferStep network verdicts platform sourceClient destinationClient item
          overwritePolicy isMove (Session.start t.before.storage)).2.journal →
      overwritePolicy ≠ .skipAll ∧
        (request.policy = .overwriteAll ∨
          request.overwrites = true ∧ request.item = some item)
  | _ => True

/-- Whenever the event ends a step that may not overwrite, and something is at its item's
destination, the existence check is answered. -/
def TransferModal.ChecksAnswered (modal : TransferModal σ) (event : ModalEvent σ) : Prop :=
  match event with
  | .finish _ index _ verdicts =>
      ∀ request, modal.inFlight[index]? = some request →
      ∀ sourceClient destinationClient item overwritePolicy isMove,
      request.task = .runTransfer sourceClient destinationClient item overwritePolicy isMove →
      ∀ place, item.destinationPlace network destinationClient = some place →
      overwritePolicy ≠ .overwriteAll → (modal.storage.contents place).isSome = true →
      verdicts.check = .served
  | _ => True

variable {platform} {network}

/-- A step of a modal whose check is answered overwrites with consent. -/
theorem TransferModal.Starts.consent {modal : TransferModal σ} {mode : TransferMode}
    (h : modal.Starts mode) {event : ModalEvent σ} (hok : modal.ChecksAnswered network event)
    (after : TransferModal σ) : OverwritesWithConsent platform network ⟨modal, event, after⟩ := by
  cases event with
  | user _ _ | elsewhere _ _ => trivial
  | finish surroundings index replies verdicts =>
      intro request hrequest sourceClient destinationClient item overwritePolicy isMove htask place
        hplace hoverwritten
      obtain ⟨hpresent, entry, hentry, hwrites⟩ := hoverwritten
      have hpolicy : overwritePolicy = .overwriteAll := by
        by_contra hpolicy
        have hcheck := hok request hrequest _ _ _ _ _ htask place hplace hpolicy hpresent
        have hfound := findsDestination_of_present hplace hcheck hpresent
        have hstopped := @runTransferStep_stopped σ network verdicts _ platform sourceClient
          destinationClient item overwritePolicy isMove modal.storage hfound hpolicy
        have hnone := hstopped.2 entry hentry
        rw [hnone] at hwrites
        cases hwrites
      obtain ⟨hitem, -, hmodal⟩ := (h.started request (List.mem_of_getElem? hrequest)).arguments
        _ _ _ _ _ htask
      refine ⟨by rw [hpolicy]; exact nofun, ?_⟩
      cases hanswer : request.overwrites with
      | true => exact .inr ⟨rfl, hitem⟩
      | false => exact .inl ((hmodal hanswer).1.symm.trans hpolicy)

/-- In every run of an opened modal in which the checks of the steps that may not
overwrite are answered, nothing is overwritten without consent. -/
theorem transfers_overwrite_with_consent {modal : TransferModal σ} (hopened : modal.Opened)
    (events : List (ModalEvent σ))
    (hchecks : Along (TransferModal.step platform network)
      (TransferModal.ChecksAnswered network) modal events) :
    ∀ t ∈ transitions (TransferModal.step platform network) modal events,
      OverwritesWithConsent platform network t := by
  intro t ht
  obtain ⟨mode, hstarts⟩ := hopened.starts
  obtain ⟨hbefore, hok, -⟩ := transitions_invariant (TransferModal.Starts mode)
    (fun _ event h _ => h.step event) hstarts hchecks ht
  exact hbefore.consent hok t.after

end Consent

/-- The end of a copy that asked, and was answered by overwriting. -/
theorem transfers_overwrite_with_consent_answered :
    OverwritesWithConsent .unix plainNetwork
      ⟨run (TransferModal.step .unix plainNetwork) (modalFor .openCopyObject)
          (untilConflict ++ [.user calm .transferConflictOverwrite]),
        .finish calm 0 emptyReplies servedVerdicts,
        (run (TransferModal.step .unix plainNetwork) (modalFor .openCopyObject)
          (untilConflict ++ [.user calm .transferConflictOverwrite])).step .unix plainNetwork
            (.finish calm 0 emptyReplies servedVerdicts)⟩ := by
  have hserved : ∀ (modal : TransferModal Str) event,
      (∀ surroundings index replies verdicts,
        event = .finish surroundings index replies verdicts → verdicts = servedVerdicts) →
      modal.ChecksAnswered plainNetwork event := by
    intro modal event hevent
    cases event with
    | user _ _ | elsewhere _ _ => trivial
    | finish surroundings index replies verdicts =>
        intro request _ _ _ _ _ _ _ _ _ _ _
        rw [hevent _ _ _ _ rfl]
        rfl
  refine transfers_overwrite_with_consent (modalFor_opened (.inl rfl)) _ ?_ _
    (transition_mem _ _ _ [])
  refine ⟨hserved _ _ ?_, hserved _ _ ?_, hserved _ _ ?_, hserved _ _ ?_, hserved _ _ ?_,
    hserved _ _ ?_, trivial⟩ <;>
    · intro _ _ _ _ hevent
      cases hevent <;> rfl

/-- The user copies `photos/x` to `photos/y` under the policy to ask. -/
def untilStep : List (ModalEvent Str) :=
  [.user calm (.transferDestinationKeyChanged "y".toList), .user calm .startTransfer,
    .finish calm 0 emptyReplies servedVerdicts]

def forbiddenCheck : ModalEvent Str :=
  .finish calm 0 emptyReplies { servedVerdicts with check := .refused "forbidden" }

/-- A check that fails lets the step overwrite what is there, under the policy to ask. -/
theorem failed_check_overwrites :
    ¬ ∀ (modal : TransferModal Str), modal.Opened → ∀ events,
      ∀ t ∈ transitions (TransferModal.step .unix plainNetwork) modal events,
        OverwritesWithConsent .unix plainNetwork t := by
  intro h
  have hstep := h (modalFor .openCopyObject) (modalFor_opened (.inl rfl)) _ _
    (transition_mem _ untilStep forbiddenCheck [])
  obtain ⟨-, hpolicy | ⟨hanswer, -⟩⟩ := hstep _ rfl _ _ _ _ _ rfl _ rfl
    ⟨rfl, _, List.mem_cons_of_mem _ List.mem_cons_self, rfl⟩
  · cases hpolicy
  · cases hanswer

end AbixioUi
