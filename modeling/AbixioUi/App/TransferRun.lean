import AbixioUi.App.TransferModal

/-! # Runs of the transfer modal

Every event of an open modal makes one of the moves of its messages. What holds of a
modal as it opens is carried from there by one case analysis; and what the modal does,
the application does in its world.
-/

namespace AbixioUi

open Foundation

/-! ## What an event can do -/

/-- The tasks that a modal starts. -/
def AppTask.ofModal : AppTask → Bool
  | .fetchTransferBuckets _ | .prepareTransfer _ | .prepareImport _ _ _
  | .prepareExport _ _ _ _ | .runTransfer _ _ _ _ _ | .refuseTransfer _
  | .fetchObjects _ _ _ => true
  | _ => false

/-- The messages a task of the modal can end with. -/
inductive Answers : AppTask → Message → Prop
  | buckets (client : Except String S3Client) (result : Except String (List Str)) :
      Answers (.fetchTransferBuckets client) (.transferDestinationBucketsLoaded result)
  | captured (items : List TransferItem) :
      Answers (.prepareTransfer items) (.transferPrepared (.ok items))
  | imported (root : PathBuf) (bucket keyPrefix : Str)
      (result : Except String (List TransferItem)) :
      Answers (.prepareImport root bucket keyPrefix) (.transferPrepared result)
  | exported (client : S3Client) (bucket keyPrefix : Str) (root : PathBuf)
      (result : Except String (List TransferItem)) :
      Answers (.prepareExport client bucket keyPrefix root) (.transferPrepared result)
  | step (sourceClient : S3Client) (destinationClient : Option S3Client) (item : TransferItem)
      (overwritePolicy : OverwritePolicy) (isMove : Bool)
      (result : Except String TransferStepResult)
      (hasks : ∀ other, result = .ok (.conflict other) → other = item ∧ overwritePolicy = .ask) :
      Answers (.runTransfer sourceClient destinationClient item overwritePolicy isMove)
        (.transferStepFinished result)
  | refused (error : String) :
      Answers (.refuseTransfer error) (.transferStepFinished (.error error))

/-- What an event makes of the modal: nothing, or what a message of the user or the
answer to a task does. -/
inductive ModalStep {σ : Type} [DecidableEq σ] (platform : Platform) (network : Network σ)
    (modal : TransferModal σ) (event : ModalEvent σ) (after : TransferModal σ) : Prop
  | still (htransfer : after.app.transfer = modal.app.transfer)
      (hinFlight : after.inFlight.Sublist modal.inFlight)
      (houtcomes : after.outcomes = modal.outcomes)
  | user (surroundings : Surroundings) (message : Message) (hmessage : message.inTransfer = true)
      (hbrings : modal.brings platform network event = some message)
      (transfer next : TransferState) (tasks : List AppTask)
      (htransfer : modal.app.transfer = some transfer)
      (hmove : ModalMove platform surroundings modal.app transfer message next tasks)
      (hnext : after.app.transfer = some next)
      (hinFlight : after.inFlight =
        modal.inFlight ++ modalTasks modal.app after.app message tasks)
      (houtcomes : after.outcomes = outcomesAfter modal.outcomes modal.pending message)
  | finish (surroundings : Surroundings) (index : Nat) (request : ModalTask) (message : Message)
      (hrequest : modal.inFlight[index]? = some request)
      (hanswers : Answers request.task message)
      (hbrings : modal.brings platform network event = some message)
      (transfer next : TransferState) (tasks : List AppTask)
      (htransfer : modal.app.transfer = some transfer)
      (hmove : ModalMove platform surroundings modal.app transfer message next tasks)
      (hnext : after.app.transfer = some next)
      (hinFlight : after.inFlight =
        modal.inFlight.eraseIdx index ++ modalTasks modal.app after.app message tasks)
      (houtcomes : after.outcomes = outcomesAfter modal.outcomes request.item message)

/-- The modal is open, and what is in flight was started by it. -/
structure TransferModal.Own {σ : Type} (modal : TransferModal σ) : Prop where
  isOpen : ∃ transfer, modal.app.transfer = some transfer
  inFlight : ∀ request ∈ modal.inFlight, request.task.ofModal = true

section Events

variable {σ : Type} [DecidableEq σ] {platform : Platform} {network : Network σ}

theorem Answers.reachesModal {task : AppTask} {message : Message} (h : Answers task message) :
    message.reachesModal = true := by
  cases h <;> rfl

theorem Proceeds.ofModal {surroundings : Surroundings} {app : App} {next after : TransferState}
    {tasks : List AppTask} (h : Proceeds platform surroundings app next after tasks) :
    ∀ task ∈ tasks, task.ofModal = true := by
  intro task htask
  cases h with
  | step item _ =>
      rw [List.mem_singleton] at htask
      subst htask
      unfold App.transferStepTask
      split <;> rfl
  | done _ _ htasks =>
      obtain ⟨client, bucket, keyPrefix, rfl⟩ := htasks task htask
      rfl

theorem ModalMove.ofModal {surroundings : Surroundings} {app : App}
    {transfer after : TransferState} {message : Message} {tasks : List AppTask}
    (h : ModalMove platform surroundings app transfer message after tasks) :
    ∀ task ∈ tasks, task.ofModal = true := by
  intro task htask
  cases h with
  | edited _ _ _ _ _ _ _ _ _ _ htasks =>
      obtain ⟨client, rfl⟩ := htasks task htask
      rfl
  | started hcan =>
      rw [List.mem_singleton] at htask
      subst htask
      unfold TransferState.prepareTask
      split <;> rfl
  | prepared _ _ _ _ hproceeds | finished _ _ _ _ _ _ hproceeds
  | skipped _ _ _ _ _ _ _ hproceeds => exact hproceeds.ofModal task htask
  | overwritten _ _ item _ _ =>
      rw [List.mem_singleton] at htask
      subst htask
      unfold App.transferStepTask
      split <;> rfl
  | ignored _ _ | unprepared _ | empty | conflict _ => cases htask

/-- What a modal is about stays as it was opened. -/
structure TransferState.SameSource (transfer after : TransferState) : Prop where
  mode : after.mode = transfer.mode
  sourceBucket : after.sourceBucket = transfer.sourceBucket
  sourceKey : after.sourceKey = transfer.sourceKey

theorem Proceeds.sameSource {surroundings : Surroundings} {app : App}
    {next after : TransferState} {tasks : List AppTask}
    (h : Proceeds platform surroundings app next after tasks) : next.SameSource after := by
  cases h <;> exact ⟨rfl, rfl, rfl⟩

theorem ModalMove.sameSource {surroundings : Surroundings} {app : App}
    {transfer after : TransferState} {message : Message} {tasks : List AppTask}
    (h : ModalMove platform surroundings app transfer message after tasks) :
    transfer.SameSource after := by
  cases h with
  | prepared _ _ _ _ hproceeds | finished _ _ _ _ _ _ hproceeds
  | skipped _ _ _ _ _ _ _ hproceeds =>
      have hsame := hproceeds.sameSource
      exact ⟨hsame.mode, hsame.sourceBucket, hsame.sourceKey⟩
  | _ => exact ⟨rfl, rfl, rfl⟩

/-- The message a task of the modal ends with, if it ends with one. -/
theorem finish_answers {task : AppTask} (h : task.ofModal = true) (replies : Replies)
    (verdicts : TransferVerdicts) (storage : Stored σ) {message : Message}
    (hmessage : (task.finish platform network replies verdicts storage).1 = some message) :
    Answers task message := by
  cases task with
  | fetchTransferBuckets client =>
      obtain rfl := Option.some.inj hmessage
      exact .buckets client _
  | prepareTransfer items =>
      obtain rfl := Option.some.inj hmessage
      exact .captured items
  | prepareImport root bucket keyPrefix =>
      obtain rfl := Option.some.inj hmessage
      exact .imported root bucket keyPrefix _
  | prepareExport client bucket keyPrefix root =>
      obtain rfl := Option.some.inj hmessage
      exact .exported client bucket keyPrefix root _
  | runTransfer sourceClient destinationClient item overwritePolicy isMove =>
      obtain rfl := Option.some.inj hmessage
      apply Answers.step
      intro other hother
      exact runTransferStep_asks sourceClient destinationClient item overwritePolicy isMove
        (Session.start storage) _ hother other rfl
  | refuseTransfer error =>
      obtain rfl := Option.some.inj hmessage
      exact .refused error
  | fetchObjects client bucket keyPrefix => cases hmessage
  | _ => cases h

/-- Every event of an open modal does one of these things. -/
theorem modal_step {modal : TransferModal σ} (hown : modal.Own) (event : ModalEvent σ) :
    ModalStep platform network modal event (modal.step platform network event) := by
  obtain ⟨transfer, htransfer⟩ := hown.isOpen
  cases event with
  | user surroundings message =>
      unfold TransferModal.step
      simp only
      split
      next hmessage =>
        have hreaches : message.reachesModal = true := by
          unfold Message.reachesModal
          rw [hmessage, Bool.true_or]
        obtain ⟨⟨next, hnext, hmove⟩, -, -⟩ :=
          @update_moves platform surroundings modal.app transfer htransfer message hreaches
        exact .user surroundings message hmessage (if_pos hmessage) transfer next _ htransfer
          hmove hnext rfl rfl
      next => exact .still rfl (List.Sublist.refl _) rfl
  | finish surroundings index replies verdicts =>
      unfold TransferModal.step
      simp only
      cases hrequest : modal.inFlight[index]? with
      | none => exact .still rfl (List.Sublist.refl _) rfl
      | some request =>
          have htask := hown.inFlight request (List.mem_of_getElem? hrequest)
          cases hfinish : request.task.finish platform network replies verdicts modal.storage with
          | mk message storage =>
              cases message with
              | none =>
                  simp only [hfinish]
                  exact .still rfl (List.eraseIdx_sublist _ _) rfl
              | some message =>
                  simp only [hfinish]
                  have hanswers : Answers request.task message :=
                    finish_answers htask replies verdicts modal.storage (by rw [hfinish])
                  obtain ⟨⟨next, hnext, hmove⟩, -, -⟩ :=
                    @update_moves platform surroundings modal.app transfer htransfer message
                      hanswers.reachesModal
                  have hbrings : modal.brings platform network
                      (.finish surroundings index replies verdicts) = some message := by
                    simp only [TransferModal.brings, hrequest, Option.bind_some, hfinish]
                  exact .finish surroundings index request message hrequest hanswers hbrings
                    transfer next _ htransfer hmove hnext rfl rfl
  | elsewhere app storage => exact .still rfl (List.Sublist.refl _) rfl

/-- The tasks a message starts are among those in flight. -/
theorem mem_modalTasks {before after : App} {message : Message} {tasks : List AppTask}
    {request : ModalTask} (h : request ∈ modalTasks before after message tasks) :
    request.task ∈ tasks := by
  obtain ⟨task, htask, rfl⟩ := List.mem_map.mp h
  exact htask

/-- What an event leaves in flight was in flight before, or was started by the message
that it brings. -/
inductive ModalTurn (platform : Platform) (modal after : TransferModal σ) : Prop
  | still (htransfer : after.app.transfer = modal.app.transfer)
      (hinFlight : ∀ request ∈ after.inFlight, request ∈ modal.inFlight)
  | heard (surroundings : Surroundings) (message : Message) (transfer next : TransferState)
      (tasks : List AppTask)
      (hheard : message.inTransfer = true ∨
        ∃ request ∈ modal.inFlight, Answers request.task message)
      (htransfer : modal.app.transfer = some transfer)
      (hmove : ModalMove platform surroundings modal.app transfer message next tasks)
      (hnext : after.app.transfer = some next)
      (hinFlight : ∀ request ∈ after.inFlight, request ∈ modal.inFlight ∨
        request ∈ modalTasks modal.app after.app message tasks)

theorem modal_turn {modal : TransferModal σ} (hown : modal.Own) (event : ModalEvent σ) :
    ModalTurn platform modal (modal.step platform network event) := by
  cases @modal_step σ _ platform network modal hown event with
  | still htransfer hinFlight _ =>
      exact .still htransfer fun request hrequest => hinFlight.subset hrequest
  | user surroundings message hmessage _ transfer next tasks htransfer hmove hnext hinFlight _ =>
      apply ModalTurn.heard surroundings message transfer next tasks (.inl hmessage) htransfer
        hmove hnext
      intro request hrequest
      rwa [hinFlight, List.mem_append] at hrequest
  | finish surroundings index answered message hrequest hanswers _ transfer next tasks htransfer
      hmove hnext hinFlight _ =>
      apply ModalTurn.heard surroundings message transfer next tasks
        (.inr ⟨answered, List.mem_of_getElem? hrequest, hanswers⟩) htransfer hmove hnext
      intro request hrequest
      rw [hinFlight, List.mem_append] at hrequest
      exact hrequest.imp_left List.mem_of_mem_eraseIdx

theorem TransferModal.Own.step {modal : TransferModal σ} (hown : modal.Own)
    (event : ModalEvent σ) : (modal.step platform network event).Own := by
  cases @modal_turn σ _ platform network modal hown event with
  | still htransfer hinFlight =>
      constructor
      · rw [htransfer]
        exact hown.isOpen
      · exact fun request hrequest => hown.inFlight request (hinFlight request hrequest)
  | heard surroundings message transfer next tasks _ _ hmove hnext hinFlight =>
      refine ⟨⟨next, hnext⟩, fun request hrequest => ?_⟩
      rcases hinFlight request hrequest with hold | hnew
      · exact hown.inFlight request hold
      · exact hmove.ofModal _ (mem_modalTasks hnew)

end Events

/-! ## A modal as it opens -/

/-- Nothing is prepared, and nothing is remembered. -/
structure TransferState.Fresh (transfer : TransferState) : Prop where
  items : transfer.items = []
  nextIndex : transfer.nextIndex = 0
  completed : transfer.completed = 0
  skipped : transfer.skipped = 0
  failed : transfer.failed = 0
  pendingConflict : transfer.pendingConflict = none
  overwritePolicy : transfer.overwritePolicy = .ask
  preparing : transfer.preparing = false
  running : transfer.running = false
  summary : transfer.summary = none

/-- The modal was just opened: none of its steps is in flight. -/
structure TransferModal.Opened {σ : Type} (modal : TransferModal σ) : Prop where
  fresh : ∃ transfer, modal.app.transfer = some transfer ∧ transfer.Fresh
  inFlight : ∀ request ∈ modal.inFlight, ∃ client, request.task = .fetchTransferBuckets client
  outcomes : modal.outcomes = []

section Opening

variable {σ : Type} (platform : Platform) (surroundings : Surroundings) (app : App)

/-- A message that opens a modal does nothing, or opens a fresh one. -/
theorem update_opens {message : Message} (h : message.opensTransfer = true) :
    app.update platform surroundings message = (app, []) ∨
      (∃ transfer, (app.update platform surroundings message).1.transfer = some transfer ∧
        transfer.Fresh) ∧
      ∀ task ∈ (app.update platform surroundings message).2, ∃ client,
        task = .fetchTransferBuckets client := by
  cases message with
  | openCopyObject =>
      simp only [App.update]
      unfold handleOpenCopyObject
      split
      next => exact .inl rfl
      next bucket key _ =>
        refine .inr ⟨⟨_, rfl, ⟨rfl, rfl, rfl, rfl, rfl, rfl, rfl, rfl, rfl, rfl⟩⟩, ?_⟩
        intro task htask
        simp only at htask
        split at htask
        · cases htask
        · exact ⟨_, List.mem_singleton.mp htask⟩
  | openMoveObject | openRenameObject =>
      simp only [App.update, handleOpenMoveObject, handleOpenRenameObject]
      unfold openMoveModal
      split
      next => exact .inl rfl
      next => exact .inr ⟨⟨_, rfl, ⟨rfl, rfl, rfl, rfl, rfl, rfl, rfl, rfl, rfl, rfl⟩⟩, by simp⟩
  | openImportFolder =>
      simp only [App.update]
      unfold handleOpenImportFolder
      split
      next => exact .inr ⟨⟨_, rfl, ⟨rfl, rfl, rfl, rfl, rfl, rfl, rfl, rfl, rfl, rfl⟩⟩, by simp⟩
      next => exact .inl rfl
  | openExportPrefix =>
      simp only [App.update]
      unfold handleOpenExportPrefix
      split
      next => exact .inr ⟨⟨_, rfl, ⟨rfl, rfl, rfl, rfl, rfl, rfl, rfl, rfl, rfl, rfl⟩⟩, by simp⟩
      next => exact .inl rfl
  | _ => cases h

theorem TransferModal.Opened.own {modal : TransferModal σ} (h : modal.Opened) : modal.Own := by
  obtain ⟨transfer, htransfer, -⟩ := h.fresh
  refine ⟨⟨transfer, htransfer⟩, fun request hrequest => ?_⟩
  obtain ⟨client, hclient⟩ := h.inFlight request hrequest
  rw [hclient]
  rfl

end Opening

/-! ## The modal in the world -/

section Worlds

variable {σ : Type} {platform : Platform} {network : Network σ}

/-- The application of the world is that of the modal, and the same tasks are in flight. -/
structure TransferModal.Within (modal : TransferModal σ) (world : World) : Prop where
  app : world.app = modal.app
  tasks : world.inFlight.map (·.task) = modal.inFlight.map (·.task)

theorem map_task_modalTasks (before after : App) (message : Message) (tasks : List AppTask) :
    (modalTasks before after message tasks).map (·.task) = tasks := by
  unfold modalTasks
  rw [List.map_map]
  exact List.map_id' tasks

theorem Message.isResult_of_inTransfer {message : Message} (h : message.inTransfer = true) :
    message.isResult = false := by
  cases message <;> first | rfl | cases h

/-- A message that reaches both of them leaves both with the same tasks. -/
theorem TransferModal.Within.receive {modal : TransferModal σ} {world : World}
    (h : modal.Within world) {event : WorldEvent} {surroundings : Surroundings}
    {message : Message} (hreceived : world.received event = some (surroundings, message))
    {rest : List ModalTask}
    (hrest : (world.remaining event).map (·.task) = rest.map (·.task))
    (item : Option TransferItem) (storage : Stored σ) :
    (modal.receive platform surroundings message item rest storage).Within
      (world.step platform event) := by
  have hhandle := handle_of_received platform hreceived
  rw [h.app] at hhandle
  constructor
  · rw [step_app, hhandle]
    rfl
  · simp only [World.step, TransferModal.receive, hhandle, List.map_append, hrest,
      map_task_modalTasks, List.map_map, Function.comp_def, List.map_id']

/-- A delivery that brings no message takes its task off both lists and changes nothing
else that they share. -/
theorem TransferModal.Within.silent {modal : TransferModal σ} {world : World}
    (h : modal.Within world) (platform : Platform) (surroundings : Surroundings) (index : Nat)
    (replies : Replies) (storage : Stored σ)
    (hnone : (world.inFlight[index]?.bind fun request => request.task.message replies) = none) :
    TransferModal.Within
      { modal with inFlight := modal.inFlight.eraseIdx index, storage := storage }
      (world.step platform (.deliver surroundings index replies)) := by
  have hreceived : world.received (.deliver surroundings index replies) = none := by
    cases hrequest : world.inFlight[index]? with
    | none => simp [World.received, hrequest]
    | some request =>
        rw [hrequest, Option.bind_some] at hnone
        simp [World.received, hrequest, hnone]
  constructor
  · simp only [step_app, World.handle, hreceived]
    exact h.app
  · simp only [World.step, World.handle, hreceived, List.map_nil, List.append_nil,
      World.remaining]
    rw [← List.eraseIdx_map, ← List.eraseIdx_map, h.tasks]

/-- What a task brings is an answer that the application could have got. -/
theorem AppTask.finish_message [DecidableEq σ] (platform : Platform) (network : Network σ)
    (replies : Replies) (verdicts : TransferVerdicts) (stored : Stored σ) (task : AppTask) :
    ∃ replies' storage,
      task.finish platform network replies verdicts stored =
        (task.message replies', storage) := by
  unfold AppTask.finish
  split
  next result session _ => exact ⟨_, _, rfl⟩
  next => exact ⟨_, _, rfl⟩

/-- What the modal does, the application does in its world. -/
theorem TransferModal.Within.step {modal : TransferModal σ} {world : World}
    [DecidableEq σ] (h : modal.Within world) {event : ModalEvent σ}
    (hevent : ∀ app storage, event ≠ .elsewhere app storage) :
    ∃ worldEvent, (modal.step platform network event).Within (world.step platform worldEvent) := by
  have hlength : world.inFlight.length = modal.inFlight.length := by
    simpa using congrArg List.length h.tasks
  cases event with
  | user surroundings message =>
      unfold TransferModal.step
      simp only
      split
      next hmessage =>
        have hreceived : world.received (.user surroundings message) =
            some (surroundings, message) := by
          simp [World.received, Message.isResult_of_inTransfer hmessage]
        exact ⟨_, h.receive hreceived h.tasks _ _⟩
      next =>
        refine ⟨.deliver surroundings world.inFlight.length emptyReplies, ?_⟩
        have hnone := h.silent platform surroundings world.inFlight.length
          emptyReplies modal.storage (by simp)
        rwa [List.eraseIdx_of_length_le (by omega)] at hnone
  | finish surroundings index replies verdicts =>
      unfold TransferModal.step
      simp only
      have htasks : world.inFlight[index]?.map (·.task) = modal.inFlight[index]?.map (·.task) := by
        rw [← List.getElem?_map, ← List.getElem?_map, h.tasks]
      cases hrequest : modal.inFlight[index]? with
      | none =>
          refine ⟨.deliver surroundings index emptyReplies, ?_⟩
          rw [hrequest, Option.map_none, Option.map_eq_none_iff] at htasks
          have hindex : modal.inFlight.length ≤ index := List.getElem?_eq_none_iff.mp hrequest
          have hnone := h.silent platform surroundings index emptyReplies
            modal.storage (by simp [htasks])
          rwa [List.eraseIdx_of_length_le hindex] at hnone
      | some request =>
          rw [hrequest, Option.map_some, Option.map_eq_some_iff] at htasks
          obtain ⟨worldRequest, hworld, htask⟩ := htasks
          obtain ⟨replies', storage, hfinish⟩ := request.task.finish_message platform network
            replies verdicts modal.storage
          refine ⟨.deliver surroundings index replies', ?_⟩
          simp only [hfinish]
          cases hmessage : request.task.message replies' with
          | none =>
              exact h.silent platform surroundings index replies' storage
                (by simp [hworld, htask, hmessage])
          | some message =>
              refine h.receive ?_ ?_ request.item storage
              · simp [World.received, hworld, htask, hmessage]
              · show (world.inFlight.eraseIdx index).map (·.task) = _
                rw [← List.eraseIdx_map, ← List.eraseIdx_map, h.tasks]
  | elsewhere app storage => exact absurd rfl (hevent app storage)

end Worlds

/-! ## A modal on one object -/

/-- The objects `photos/x` and `photos/y` on the server of the application. -/
def twoObjects : Stored Str where
  contents := fun place =>
    if place = .object fallbackClient.endpoint "photos".toList "x".toList then some [7]
    else if place = .object fallbackClient.endpoint "photos".toList "y".toList then some [8]
    else none
  folders := fun _ => false

/-- The modal that a message opens while `photos/x` is selected. -/
def modalFor (message : Message) : TransferModal Str where
  app :=
    (App.update .unix calm
      { unconnected.app with selection := .object "photos".toList "x".toList } message).1
  inFlight := []
  storage := twoObjects
  outcomes := []

theorem modalFor_opened {message : Message}
    (h : message = .openCopyObject ∨ message = .openMoveObject) : (modalFor message).Opened := by
  refine ⟨?_, fun request hrequest => ?_, rfl⟩
  · rcases h with rfl | rfl <;>
      exact ⟨_, rfl, ⟨rfl, rfl, rfl, rfl, rfl, rfl, rfl, rfl, rfl, rfl⟩⟩
  · cases hrequest

/-- The user names `photos/y` as the destination and starts; the item is prepared, its
step runs, and as something is there the modal asks. -/
def untilConflict : List (ModalEvent Str) :=
  [.user calm (.transferDestinationKeyChanged "y".toList), .user calm .startTransfer,
    .finish calm 0 emptyReplies servedVerdicts, .finish calm 0 emptyReplies servedVerdicts]

end AbixioUi
