import AbixioUi.App.TransferStep
import AbixioUi.App.World

/-! # The transfer modal

One modal from its opening on: the messages the user sends it, and the results of the
tasks it started, in any order. A step in flight is kept with the item it was started
for and with the consent it was started under; its answer is what the requests of the
step get from the storage. Between these events the rest of the application, and
whoever else uses the storage, may do anything.
-/

namespace AbixioUi

open Foundation

/-! ## Messages of the modal -/

/-- The messages of an open modal that the user sends. -/
def Message.inTransfer : Message → Bool
  | .startTransfer | .transferConflictOverwrite | .transferConflictSkip
  | .transferConflictOverwriteAll | .transferConflictSkipAll
  | .transferDestinationConnectionChanged _ | .transferDestinationBucketChanged _
  | .transferDestinationKeyChanged _ => true
  | _ => false

/-- The messages that open a modal. -/
def Message.opensTransfer : Message → Bool
  | .openCopyObject | .openMoveObject | .openRenameObject | .openImportFolder
  | .openExportPrefix => true
  | _ => false

/-- The answers to a conflict that overwrite. -/
def Message.overwrites : Message → Bool
  | .transferConflictOverwrite | .transferConflictOverwriteAll => true
  | _ => false

/-- The answers to a conflict that skip. -/
def Message.skips : Message → Bool
  | .transferConflictSkip | .transferConflictSkipAll => true
  | _ => false

def AppTask.isStep : AppTask → Bool
  | .runTransfer _ _ _ _ _ | .refuseTransfer _ => true
  | _ => false

/-! ## The state -/

/-- A task of the modal in flight. A step is for an item; it is started under a policy,
or to overwrite the item in answer to a conflict. -/
structure ModalTask where
  task : AppTask
  item : Option TransferItem
  policy : OverwritePolicy
  overwrites : Bool

inductive ItemOutcome
  | copied
  | skipped
  | failed
deriving DecidableEq, Repr

/-- The final outcome that a step's result is, if it is one. -/
def itemOutcome? : Except String TransferStepResult → Option ItemOutcome
  | .ok (.copied _) => some .copied
  | .ok (.skipped _) => some .skipped
  | .ok (.conflict _) => none
  | .error _ => some .failed

structure TransferModal (σ : Type) where
  app : App
  inFlight : List ModalTask
  storage : Stored σ
  /-- The final outcomes of the items of the current list, in the order they came. -/
  outcomes : List (TransferItem × ItemOutcome)

inductive ModalEvent (σ : Type)
  | user (surroundings : Surroundings) (message : Message)
  | finish (surroundings : Surroundings) (index : Nat) (replies : Replies)
      (verdicts : TransferVerdicts)
  | elsewhere (app : App) (storage : Stored σ)

/-! ## Steps -/

section Steps

variable {σ : Type} [DecidableEq σ] (platform : Platform) (network : Network σ)

/-- What the servers and the file system make of a task. -/
def AppTask.perform (verdicts : TransferVerdicts) (storage : Stored σ) :
    AppTask → Option (Except String TransferStepResult × TransferSession σ)
  | .runTransfer sourceClient destinationClient item overwritePolicy isMove =>
      some (runTransferStep network verdicts platform sourceClient destinationClient item
        overwritePolicy isMove (Session.start storage))
  | _ => none

/-- The message a task ends with, and the storage it leaves. -/
def AppTask.finish (replies : Replies) (verdicts : TransferVerdicts) (storage : Stored σ)
    (task : AppTask) : Option Message × Stored σ :=
  match task.perform platform network verdicts storage with
  | some (result, session) => (task.message { replies with step := result }, session.store)
  | none => (task.message replies, storage)

/-- The tasks a message starts. Overwriting is for the item of the conflict, every other
step for the item that is next. -/
def modalTasks (before after : App) (message : Message) (tasks : List AppTask) :
    List ModalTask :=
  tasks.map fun task =>
    { task := task
      item :=
        if message.overwrites then before.transfer.bind (·.pendingConflict)
        else after.transfer.bind fun transfer => transfer.items[transfer.nextIndex]?
      policy := ((after.transfer.map (·.overwritePolicy)).getD .ask)
      overwrites := message.overwrites }

/-- The outcomes after a message; `item` is the one the message is about. -/
def outcomesAfter (outcomes : List (TransferItem × ItemOutcome)) (item : Option TransferItem)
    (message : Message) : List (TransferItem × ItemOutcome) :=
  match message with
  | .transferPrepared (.ok _) => []
  | .transferStepFinished result =>
      match item, itemOutcome? result with
      | some item, some outcome => outcomes ++ [(item, outcome)]
      | _, _ => outcomes
  | .transferConflictSkip | .transferConflictSkipAll =>
      match item with
      | some item => outcomes ++ [(item, .skipped)]
      | none => outcomes
  | _ => outcomes

/-- The modal after a message about an item. -/
def TransferModal.receive (modal : TransferModal σ) (surroundings : Surroundings)
    (message : Message) (item : Option TransferItem) (inFlight : List ModalTask)
    (storage : Stored σ) : TransferModal σ :=
  let (app, tasks) := modal.app.update platform surroundings message
  { app := app
    inFlight := inFlight ++ modalTasks modal.app app message tasks
    storage := storage
    outcomes := outcomesAfter modal.outcomes item message }

def TransferModal.pending (modal : TransferModal σ) : Option TransferItem :=
  modal.app.transfer.bind (·.pendingConflict)

/-- The message an event brings to the modal. -/
def TransferModal.brings (modal : TransferModal σ) : ModalEvent σ → Option Message
  | .user _ message => if message.inTransfer then some message else none
  | .finish _ index replies verdicts =>
      modal.inFlight[index]?.bind fun request =>
        (request.task.finish platform network replies verdicts modal.storage).1
  | .elsewhere _ _ => none

def TransferModal.step (modal : TransferModal σ) : ModalEvent σ → TransferModal σ
  | .user surroundings message =>
      if message.inTransfer then
        modal.receive platform surroundings message modal.pending modal.inFlight modal.storage
      else modal
  | .finish surroundings index replies verdicts =>
      match modal.inFlight[index]? with
      | none => modal
      | some request =>
          match request.task.finish platform network replies verdicts modal.storage with
          | (some message, storage) =>
              modal.receive platform surroundings message request.item
                (modal.inFlight.eraseIdx index) storage
          | (none, storage) =>
              { modal with inFlight := modal.inFlight.eraseIdx index, storage := storage }
  | .elsewhere app storage =>
      { modal with app := { app with transfer := modal.app.transfer }, storage := storage }

end Steps

/-! ## What a message can do -/

def TransferState.doneSummary (transfer : TransferState) : String :=
  "Done. Copied: " ++ toString transfer.completed ++ ". Skipped: " ++
    toString transfer.skipped ++ ". Failed: " ++ toString transfer.failed ++ "."

/-- The modal with a new list of items. -/
def TransferState.listing (transfer : TransferState) (items : List TransferItem) :
    TransferState :=
  { transfer with
    preparing := false
    items := items
    nextIndex := 0
    completed := 0
    skipped := 0
    failed := 0
    running := true
    pendingConflict := none
    currentItem := none }

/-- The modal with one more outcome. -/
def TransferState.counting (transfer : TransferState) (outcome : ItemOutcome) : TransferState :=
  { transfer with
    completed := transfer.completed + if outcome = .copied then 1 else 0
    skipped := transfer.skipped + if outcome = .skipped then 1 else 0
    failed := transfer.failed + if outcome = .failed then 1 else 0
    nextIndex := transfer.nextIndex + 1 }

/-- Edits of the destination, and the buckets listed for it. -/
def Message.editsTransfer : Message → Bool
  | .transferDestinationConnectionChanged _ | .transferDestinationBucketChanged _
  | .transferDestinationKeyChanged _ | .transferDestinationBucketsLoaded _ => true
  | _ => false

/-- The next item is taken, or the list is done. -/
inductive Proceeds (platform : Platform) (surroundings : Surroundings) (app : App)
    (next : TransferState) : TransferState → List AppTask → Prop
  | step (item : TransferItem) (hitem : next.items[next.nextIndex]? = some item) :
      Proceeds platform surroundings app next
        { next with
          running := true
          pendingConflict := none
          currentItem := some (item.label platform) }
        [app.transferStepTask surroundings item next.overwritePolicy
          (decide (next.mode = .moveObject))]
  | done (tasks : List AppTask) (hdone : next.items[next.nextIndex]? = none)
      (htasks : ∀ task ∈ tasks, ∃ client bucket keyPrefix,
        task = .fetchObjects client bucket keyPrefix) :
      Proceeds platform surroundings app next
        { next with
          running := false
          pendingConflict := none
          currentItem := none
          summary := some next.doneSummary }
        tasks

/-- What a message of the modal makes of it, and the tasks it starts. -/
inductive ModalMove (platform : Platform) (surroundings : Surroundings) (app : App)
    (transfer : TransferState) : Message → TransferState → List AppTask → Prop
  | edited (message : Message) (hedits : message.editsTransfer = true)
      (connectionId bucket key : Str) (buckets : Option (Except String (List Str)))
      (loading : Bool) (summary : Option String)
      (hsummary : summary = none ∨ summary = transfer.summary) (tasks : List AppTask)
      (htasks : ∀ task ∈ tasks, ∃ client, task = .fetchTransferBuckets client) :
      ModalMove platform surroundings app transfer message
        { transfer with
          destinationConnectionId := connectionId
          destinationBucket := bucket
          destinationKey := key
          destinationBuckets := buckets
          loadingDestinationBuckets := loading
          summary := summary } tasks
  | ignored (message : Message)
      (hignored : message = .startTransfer ∨
        (message.skips = true ∨ message.overwrites = true) ∧
          transfer.pendingConflict = none) :
      ModalMove platform surroundings app transfer message transfer []
  | started (hcan : app.transferCanStart = true) :
      ModalMove platform surroundings app transfer .startTransfer
        { transfer with preparing := true, summary := none }
        [transfer.prepareTask app.client]
  | unprepared (error : String) :
      ModalMove platform surroundings app transfer (.transferPrepared (.error error))
        { transfer with
          preparing := false
          running := false
          summary := some ("Transfer preparation failed: " ++ error) } []
  | empty :
      ModalMove platform surroundings app transfer (.transferPrepared (.ok []))
        { transfer.listing [] with running := false, summary := some "Nothing to copy." } []
  | prepared (items : List TransferItem) (hitems : items ≠ []) (after : TransferState)
      (tasks : List AppTask)
      (hproceeds : Proceeds platform surroundings app (transfer.listing items) after tasks) :
      ModalMove platform surroundings app transfer (.transferPrepared (.ok items)) after tasks
  | conflict (item : TransferItem) :
      ModalMove platform surroundings app transfer
        (.transferStepFinished (.ok (.conflict item)))
        { transfer with pendingConflict := some item, currentItem := none, running := false } []
  | finished (result : Except String TransferStepResult) (outcome : ItemOutcome)
      (houtcome : itemOutcome? result = some outcome) (currentItem : Option String)
      (after : TransferState) (tasks : List AppTask)
      (hproceeds : Proceeds platform surroundings app
        { transfer.counting outcome with currentItem := currentItem } after tasks) :
      ModalMove platform surroundings app transfer (.transferStepFinished result) after tasks
  | skipped (message : Message) (hskips : message.skips = true) (item : TransferItem)
      (hpending : transfer.pendingConflict = some item) (overwritePolicy : OverwritePolicy)
      (after : TransferState) (tasks : List AppTask)
      (hproceeds : Proceeds platform surroundings app
        { transfer.counting .skipped with
          pendingConflict := none
          overwritePolicy := overwritePolicy
          currentItem := some (item.label platform) } after tasks) :
      ModalMove platform surroundings app transfer message after tasks
  | overwritten (message : Message) (hoverwrites : message.overwrites = true)
      (item : TransferItem) (hpending : transfer.pendingConflict = some item)
      (overwritePolicy : OverwritePolicy) :
      ModalMove platform surroundings app transfer message
        { transfer with
          pendingConflict := none
          overwritePolicy := overwritePolicy
          running := true }
        [app.transferStepTask surroundings item .overwriteAll false]

theorem overwrites_of_skips {message : Message} (h : message.skips = true) :
    message.overwrites = false := by
  cases message <;> first | rfl | cases h

/-- The messages of an open modal, and the results of its tasks. -/
def Message.reachesModal (message : Message) : Bool :=
  message.inTransfer || match message with
    | .transferDestinationBucketsLoaded _ | .transferPrepared _ | .transferStepFinished _ => true
    | _ => false

/-- The modal moves, and the connections stay. -/
structure Moves (platform : Platform) (surroundings : Surroundings) (app : App)
    (transfer : TransferState) (message : Message) (result : App × List AppTask) : Prop where
  move : ∃ after, result.1.transfer = some after ∧
    ModalMove platform surroundings app transfer message after result.2
  client : result.1.client = app.client
  connections : result.1.connections = app.connections

section Moves

variable {platform : Platform} {surroundings : Surroundings} {app : App}
  {transfer : TransferState}

theorem fetchObjects_tasks (app : App) :
    ∀ task ∈ app.fetchObjects, ∃ client bucket keyPrefix,
      task = .fetchObjects client bucket keyPrefix := by
  intro task htask
  unfold App.fetchObjects at htask
  cases hbucket : app.selectedBucket with
  | none => simp [hbucket] at htask
  | some bucket =>
      simp only [hbucket, List.mem_singleton] at htask
      exact ⟨_, _, _, htask⟩

theorem processNextTransferStep_proceeds (h : app.transfer = some transfer) :
    ∃ after, (processNextTransferStep platform surroundings app).1.transfer = some after ∧
      Proceeds platform surroundings app transfer after
        (processNextTransferStep platform surroundings app).2 ∧
      (processNextTransferStep platform surroundings app).1.client = app.client ∧
      (processNextTransferStep platform surroundings app).1.connections = app.connections := by
  unfold processNextTransferStep
  rw [h]
  cases hitem : transfer.items[transfer.nextIndex]? with
  | some item =>
      simp only [hitem, and_self, and_true]
      exact ⟨_, rfl, .step item hitem⟩
  | none =>
      simp only [hitem]
      split
      · exact ⟨_, rfl, .done _ hitem (fetchObjects_tasks _), rfl, rfl⟩
      · exact ⟨_, rfl, .done _ hitem (by simp), rfl, rfl⟩

/-- The steps of two applications with the same connections are the same. -/
theorem Proceeds.of_sameConnections {app' : App} {next after : TransferState}
    {tasks : List AppTask} (hclient : app'.client = app.client)
    (hconnections : app'.connections = app.connections)
    (h : Proceeds platform surroundings app' next after tasks) :
    Proceeds platform surroundings app next after tasks := by
  have htask : ∀ item policy isMove, app'.transferStepTask surroundings item policy isMove =
      app.transferStepTask surroundings item policy isMove := by
    intro item policy isMove
    unfold App.transferStepTask
    rw [hclient]
    cases item.destination <;>
      simp only [App.endpointClient, App.makeClientForConnection, hclient, hconnections]
  cases h with
  | step item hitem =>
      rw [htask]
      exact .step item hitem
  | done _ hdone htasks => exact .done _ hdone htasks

/-- What the next step makes of a modal that was prepared for it. -/
theorem moves_of_proceeds {message : Message} {app' : App} {next : TransferState}
    (hnext : app'.transfer = some next) (hclient : app'.client = app.client)
    (hconnections : app'.connections = app.connections)
    (hmove : ∀ after tasks, Proceeds platform surroundings app next after tasks →
      ModalMove platform surroundings app transfer message after tasks) :
    Moves platform surroundings app transfer message
      (processNextTransferStep platform surroundings app') := by
  obtain ⟨after, hafter, hproceeds, hclient', hconnections'⟩ :=
    @processNextTransferStep_proceeds platform surroundings app' next hnext
  exact ⟨⟨after, hafter, hmove after _ (hproceeds.of_sameConnections hclient hconnections)⟩,
    hclient'.trans hclient, hconnections'.trans hconnections⟩

theorem handleStartTransfer_moves (h : app.transfer = some transfer) :
    Moves platform surroundings app transfer .startTransfer (handleStartTransfer app) := by
  unfold handleStartTransfer
  cases hcan : app.transferCanStart with
  | true =>
      simp only [if_true, h]
      exact ⟨⟨_, rfl, .started hcan⟩, rfl, rfl⟩
  | false =>
      simp only [Bool.false_eq_true, if_false]
      exact ⟨⟨_, h, .ignored _ (.inl rfl)⟩, rfl, rfl⟩

theorem handleTransferPrepared_moves (h : app.transfer = some transfer)
    (result : Except String (List TransferItem)) :
    Moves platform surroundings app transfer (.transferPrepared result)
      (handleTransferPrepared platform surroundings app result) := by
  unfold handleTransferPrepared
  rw [h]
  cases result with
  | error error => exact ⟨⟨_, rfl, .unprepared error⟩, rfl, rfl⟩
  | ok items =>
      simp only
      split
      next hitems =>
        subst hitems
        exact ⟨⟨_, rfl, .empty⟩, rfl, rfl⟩
      next hitems =>
        exact moves_of_proceeds rfl rfl rfl fun after tasks => .prepared items hitems after tasks

theorem handleTransferStepFinished_moves (h : app.transfer = some transfer)
    (result : Except String TransferStepResult) :
    Moves platform surroundings app transfer (.transferStepFinished result)
      (handleTransferStepFinished platform surroundings app result) := by
  unfold handleTransferStepFinished
  rw [h]
  cases result with
  | error error =>
      exact moves_of_proceeds rfl rfl rfl fun after tasks =>
        .finished _ .failed rfl transfer.currentItem after tasks
  | ok result =>
      cases result with
      | conflict item => exact ⟨⟨_, rfl, .conflict item⟩, rfl, rfl⟩
      | copied label =>
          exact moves_of_proceeds rfl rfl rfl fun after tasks =>
            .finished _ .copied rfl (some label) after tasks
      | skipped label =>
          exact moves_of_proceeds rfl rfl rfl fun after tasks =>
            .finished _ .skipped rfl (some label) after tasks

theorem resolveTransferConflict_moves (h : app.transfer = some transfer) {message : Message}
    {skip remember : Bool} (hskips : message.skips = skip)
    (hoverwrites : message.overwrites = !skip) :
    Moves platform surroundings app transfer message
      (resolveTransferConflict platform surroundings app skip remember) := by
  unfold resolveTransferConflict
  rw [h]
  cases hpending : transfer.pendingConflict with
  | none =>
      simp only [hpending]
      have hanswer : message.skips = true ∨ message.overwrites = true := by
        cases skip
        · exact .inr hoverwrites
        · exact .inl hskips
      exact ⟨⟨_, h, .ignored _ (.inr ⟨hanswer, hpending⟩)⟩, rfl, rfl⟩
  | some item =>
      simp only [hpending]
      cases skip with
      | true =>
          simp only [if_true]
          exact moves_of_proceeds rfl rfl rfl fun after tasks =>
            .skipped message hskips item hpending _ after tasks
      | false =>
          simp only [Bool.false_eq_true, if_false]
          exact ⟨⟨_, rfl, .overwritten message hoverwrites item hpending _⟩, rfl, rfl⟩

/-- Every message of the modal does one of these things. -/
theorem update_moves (h : app.transfer = some transfer) {message : Message}
    (hmessage : message.reachesModal = true) :
    Moves platform surroundings app transfer message
      (app.update platform surroundings message) := by
  cases message with
  | startTransfer => exact handleStartTransfer_moves h
  | transferPrepared result => exact handleTransferPrepared_moves h result
  | transferStepFinished result => exact handleTransferStepFinished_moves h result
  | transferConflictOverwrite => exact resolveTransferConflict_moves h rfl rfl
  | transferConflictSkip => exact resolveTransferConflict_moves h rfl rfl
  | transferConflictOverwriteAll => exact resolveTransferConflict_moves h rfl rfl
  | transferConflictSkipAll => exact resolveTransferConflict_moves h rfl rfl
  | transferDestinationConnectionChanged connectionId =>
      simp only [App.update, handleTransferDestinationConnectionChanged, h]
      exact ⟨⟨_, rfl, .edited _ rfl connectionId [] transfer.destinationKey none true none
        (.inl rfl) _ (by simp [App.fetchTransferBuckets])⟩, rfl, rfl⟩
  | transferDestinationBucketChanged bucket =>
      simp only [App.update, handleTransferDestinationBucketChanged, App.editTransfer, h]
      exact ⟨⟨_, rfl, .edited _ rfl transfer.destinationConnectionId bucket
        transfer.destinationKey transfer.destinationBuckets transfer.loadingDestinationBuckets
        none (.inl rfl) _ (by simp)⟩, rfl, rfl⟩
  | transferDestinationKeyChanged key =>
      simp only [App.update, handleTransferDestinationKeyChanged, App.editTransfer, h]
      exact ⟨⟨_, rfl, .edited _ rfl transfer.destinationConnectionId transfer.destinationBucket
        key transfer.destinationBuckets transfer.loadingDestinationBuckets none (.inl rfl) _
        (by simp)⟩, rfl, rfl⟩
  | transferDestinationBucketsLoaded result =>
      simp only [App.update, handleTransferDestinationBucketsLoaded, App.editTransfer, h]
      exact ⟨⟨_, rfl, .edited _ rfl transfer.destinationConnectionId transfer.destinationBucket
        transfer.destinationKey (some result) false transfer.summary (.inr rfl) _
        (by simp)⟩, rfl, rfl⟩
  | _ => cases hmessage

end Moves

end AbixioUi
