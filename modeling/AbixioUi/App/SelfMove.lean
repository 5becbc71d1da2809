import AbixioUi.App.Redirect
import AbixioUi.App.TransferMove

/-! # Moving an object onto itself

A copy onto itself followed by the delete leaves nothing. The form holds such a move
back by comparing the connection id with that of the current connection, and the
server of the current connection can have other ids. The messages of a modal keep the
client and the saved connections, so what an id resolves to does not change under it.
-/

namespace AbixioUi

open Foundation

/-! ## One stored object -/

/-- The destination of the form is the object that is to be moved. -/
def App.SameObject {σ : Type} (network : Network σ) (app : App) (transfer : TransferState) :
    Prop :=
  transfer.sourceBucket = some transfer.destinationBucket ∧
    transfer.sourceKey = some transfer.destinationKey ∧
    ∃ endpoint, app.serverOf transfer.destinationConnectionId = some endpoint ∧
      network.host endpoint = app.client.server network

/-- The destination is named by the current connection, or the form cannot be sent as
it is. -/
def TransferState.HeldBack (transfer : TransferState) : Prop :=
  transfer.destinationConnectionId = CURRENT_CONNECTION_ID ∨ transfer.preparing = true ∨
    transfer.running = true ∨ transfer.loadingDestinationBuckets = true ∨
    transfer.destinationBucket = [] ∨ transfer.destinationKey = []

/-- A move that would be onto itself cannot start, and no step in flight deletes an
object that it copies onto itself. -/
structure TransferModal.BlocksSelfMoves {σ : Type} [DecidableEq σ] (platform : Platform)
    (network : Network σ) (modal : TransferModal σ) : Prop where
  start : ∀ transfer, modal.app.transfer = some transfer →
    modal.app.SameObject network transfer → modal.app.transferCanStart = false
  deletes : ∀ request ∈ modal.inFlight,
    ∀ sourceClient destinationClient item overwritePolicy isMove,
    request.task = .runTransfer sourceClient destinationClient item overwritePolicy isMove →
    item.destinationPlace network destinationClient =
      some (item.source.place network sourceClient) →
    ∀ verdicts storage,
      (runTransferStep network verdicts platform sourceClient destinationClient item
        overwritePolicy isMove).Ends (Session.start storage) fun _ session =>
          ∀ entry ∈ session.journal, entry.1.deletes = false

/-- Whenever the destination is the object itself, it is held back. -/
def TransferModal.HoldsBack {σ : Type} (network : Network σ) (modal : TransferModal σ) : Prop :=
  ∀ transfer, modal.app.transfer = some transfer → modal.app.SameObject network transfer →
    transfer.HeldBack

section Starting

variable {σ : Type} {network : Network σ} {app : App} {transfer : TransferState}

/-- A move onto itself cannot start exactly if it is held back. -/
theorem transferCanStart_eq_false_iff (h : app.transfer = some transfer)
    (hmode : transfer.mode = .moveObject) (hsame : app.SameObject network transfer) :
    app.transferCanStart = false ↔ transfer.HeldBack := by
  obtain ⟨hbucket, hkey, -⟩ := hsame
  have hpoints : transfer.pointsToSameObject =
      decide (transfer.destinationConnectionId = CURRENT_CONNECTION_ID) := by
    unfold TransferState.pointsToSameObject
    simp [hbucket, hkey]
  unfold App.transferCanStart TransferState.HeldBack
  simp only [h, hmode, hpoints]
  split
  next hbusy =>
    simp only [Bool.or_eq_true] at hbusy
    exact iff_of_true rfl (by tauto)
  next hfree =>
    simp only [Bool.or_eq_true, not_or, Bool.not_eq_true] at hfree
    simp only [hfree, Bool.and_eq_false_iff, decide_eq_false_iff_not, Bool.not_eq_false',
      decide_eq_true_eq, not_not]
    tauto

end Starting

/-! ## The connections of a modal -/

/-- Every id resolves in both of them to the same server. -/
structure App.SameConnections (app app' : App) : Prop where
  client : app'.client = app.client
  connections : app'.connections = app.connections

/-- What happens elsewhere in the application keeps the client and the connections. -/
def TransferModal.KeepsConnections {σ : Type} (modal : TransferModal σ) : ModalEvent σ → Prop
  | .elsewhere app _ => modal.app.SameConnections app
  | _ => True

/-- A step is sent to the client of the application, and checked at the server that the
destination's id stands for. -/
def AppTask.UsesConnections (app : App) : AppTask → Prop
  | .runTransfer sourceClient destinationClient item _ _ =>
      sourceClient = app.client ∧ ∀ id bucket key client, item.destination = .s3 id bucket key →
        destinationClient = some client → app.serverOf id = some client.endpoint
  | _ => True

section Connections

variable {platform : Platform} {surroundings : Surroundings} {app app' : App}
  {transfer next after : TransferState} {tasks : List AppTask} {message : Message}

theorem App.SameConnections.refl (app : App) : app.SameConnections app := ⟨rfl, rfl⟩

theorem App.SameConnections.trans {app'' : App} (h : app.SameConnections app')
    (h' : app'.SameConnections app'') : app.SameConnections app'' :=
  ⟨h'.client.trans h.client, h'.connections.trans h.connections⟩

theorem App.SameConnections.serverOf (h : app.SameConnections app') (id : Str) :
    app'.serverOf id = app.serverOf id := by
  unfold App.serverOf
  rw [h.client, h.connections]

theorem App.SameConnections.usesConnections (h : app.SameConnections app') {task : AppTask}
    (huses : task.UsesConnections app') : task.UsesConnections app := by
  cases task with
  | runTransfer sourceClient destinationClient item overwritePolicy isMove =>
      refine ⟨huses.1.trans h.client, fun id bucket key client hdestination hclient => ?_⟩
      rw [← h.serverOf]
      exact huses.2 id bucket key client hdestination hclient
  | _ => trivial

theorem transferStepTask_usesConnections (item : TransferItem) (overwritePolicy : OverwritePolicy)
    (isMove : Bool) :
    (app.transferStepTask surroundings item overwritePolicy isMove).UsesConnections app := by
  unfold App.transferStepTask
  split
  next destinationClient hclient =>
    refine ⟨rfl, fun id bucket key client hdestination hsome => ?_⟩
    rw [hdestination] at hclient
    obtain ⟨client', hsome', hmade⟩ := endpointClient_s3 hclient
    rw [← Option.some.inj (hsome'.symm.trans hsome)]
    exact serverOf_of_client hmade
  next => trivial

theorem Proceeds.usesConnections (h : Proceeds platform surroundings app next after tasks) :
    ∀ task ∈ tasks, task.UsesConnections app := by
  intro task htask
  cases h with
  | step item _ =>
      rw [List.mem_singleton.mp htask]
      exact transferStepTask_usesConnections _ _ _
  | done _ _ htasks =>
      obtain ⟨client, bucket, keyPrefix, rfl⟩ := htasks task htask
      trivial

theorem ModalMove.usesConnections
    (h : ModalMove platform surroundings app transfer message after tasks) :
    ∀ task ∈ tasks, task.UsesConnections app := by
  intro task htask
  cases h with
  | edited _ _ _ _ _ _ _ _ _ _ htasks =>
      obtain ⟨client, rfl⟩ := htasks task htask
      trivial
  | started _ =>
      rw [List.mem_singleton.mp htask]
      unfold TransferState.prepareTask
      split <;> trivial
  | prepared _ _ _ _ hproceeds | finished _ _ _ _ _ _ hproceeds
  | skipped _ _ _ _ _ _ _ hproceeds => exact hproceeds.usesConnections task htask
  | overwritten _ _ _ _ _ =>
      rw [List.mem_singleton.mp htask]
      exact transferStepTask_usesConnections _ _ _
  | ignored _ _ | unprepared _ | empty | conflict _ => cases htask

variable {σ : Type} [DecidableEq σ] {network : Network σ} {modal : TransferModal σ}

/-- An event of the modal keeps the connections. -/
theorem step_sameConnections (hown : modal.Own) {event : ModalEvent σ}
    (hkeeps : modal.KeepsConnections event) :
    modal.app.SameConnections (modal.step platform network event).app := by
  obtain ⟨transfer, htransfer⟩ := hown.isOpen
  have hupdate : ∀ surroundings message, message.reachesModal = true →
      modal.app.SameConnections (modal.app.update platform surroundings message).1 := by
    intro surroundings message hreaches
    have hmoves := @update_moves platform surroundings modal.app transfer htransfer message hreaches
    exact ⟨hmoves.client, hmoves.connections⟩
  cases event with
  | user surroundings message =>
      unfold TransferModal.step
      simp only
      split
      next hmessage =>
        apply hupdate
        unfold Message.reachesModal
        rw [hmessage, Bool.true_or]
      next => exact .refl _
  | finish surroundings index replies verdicts =>
      unfold TransferModal.step
      simp only
      cases hrequest : modal.inFlight[index]? with
      | none => exact .refl _
      | some request =>
          have htask := hown.inFlight request (List.mem_of_getElem? hrequest)
          cases hfinish : request.task.finish platform network replies verdicts modal.storage with
          | mk message storage =>
              cases message with
              | none =>
                  simp only [hfinish]
                  exact .refl _
              | some message =>
                  simp only [hfinish]
                  apply hupdate
                  exact (finish_answers htask replies verdicts modal.storage
                    (by rw [hfinish])).reachesModal
  | elsewhere app storage => exact ⟨hkeeps.client, hkeeps.connections⟩

theorem step_usesConnections {app : App} (hown : modal.Own) (hsame : app.SameConnections modal.app)
    (h : ∀ request ∈ modal.inFlight, request.task.UsesConnections app) (event : ModalEvent σ) :
    ∀ request ∈ (modal.step platform network event).inFlight,
      request.task.UsesConnections app := by
  intro request hrequest
  cases @modal_turn σ _ platform network modal hown event with
  | still _ hinFlight => exact h request (hinFlight request hrequest)
  | heard _ message transfer next tasks _ _ hmove _ hinFlight =>
      rcases hinFlight request hrequest with hold | hnew
      · exact h request hold
      · exact hsame.usesConnections (hmove.usesConnections _ (mem_modalTasks hnew))

end Connections

/-! ## Runs of a move -/

/-- The item is not from an object to itself, as the application resolves its ids. -/
def TransferItem.Apart {σ : Type} (network : Network σ) (app : App) (item : TransferItem) :
    Prop :=
  ∃ sourceBucket sourceKey id bucket key,
    item = ⟨.s3 CURRENT_CONNECTION_ID sourceBucket sourceKey, .s3 id bucket key⟩ ∧
    ¬ (sourceBucket = bucket ∧ sourceKey = key ∧
      ∃ endpoint, app.serverOf id = some endpoint ∧
        network.host endpoint = app.client.server network)

/-- A modal that moves, with the connections of the application it was opened in, and no
item onto itself. -/
structure TransferModal.KeepsApart {σ : Type} (network : Network σ) (app : App)
    (modal : TransferModal σ) : Prop where
  starts : modal.Starts .moveObject
  connections : app.SameConnections modal.app
  carries : modal.Carries (TransferItem.Apart network app)
  inFlight : ∀ request ∈ modal.inFlight, request.task.UsesConnections app

section SelfMoves

variable {σ : Type} {network : Network σ} {modal : TransferModal σ} {app : App}

/-- What can start under the condition is not onto itself. -/
theorem object_apart {transfer : TransferState} (h : modal.KeepsApart network app)
    (hholds : modal.HoldsBack network) (htransfer : modal.app.transfer = some transfer)
    (hcan : modal.app.transferCanStart = true) : transfer.object.Apart network app := by
  have hmode := h.starts.inMode transfer htransfer
  refine ⟨_, _, _, _, _, rfl, ?_⟩
  rintro ⟨hbucket, hkey, endpoint, hserver, hhost⟩
  have hfilled : transfer.destinationBucket ≠ [] ∧ transfer.destinationKey ≠ [] := by
    unfold App.transferCanStart at hcan
    simp only [htransfer, hmode] at hcan
    split at hcan
    · cases hcan
    · simp only [Bool.and_eq_true, decide_eq_true_eq] at hcan
      exact hcan.1
  have hsome : ∀ {text : Option Str} {named : Str}, named ≠ [] → text.getD [] = named →
      text = some named := by
    intro text named hne heq
    cases text with
    | none => exact absurd heq.symm hne
    | some text => exact congrArg some heq
  have hsame : modal.app.SameObject network transfer := by
    refine ⟨hsome hfilled.1 hbucket, hsome hfilled.2 hkey, endpoint, ?_, ?_⟩
    · rw [h.connections.serverOf]
      exact hserver
    · rw [h.connections.client]
      exact hhost
  have hstopped := (transferCanStart_eq_false_iff htransfer hmode hsame).mpr
    (hholds transfer htransfer hsame)
  exact Bool.false_ne_true (hstopped.symm.trans hcan)

theorem TransferModal.Opened.keepsApart (h : modal.Opened)
    (hmode : ∃ transfer, modal.app.transfer = some transfer ∧ transfer.mode = .moveObject) :
    modal.KeepsApart network modal.app where
  starts := h.startsIn hmode
  connections := .refl _
  carries := h.carries
  inFlight := by
    intro request hrequest
    obtain ⟨client, hclient⟩ := h.inFlight request hrequest
    rw [hclient]
    trivial

/-- A step of such a modal is never from an object to itself. -/
theorem TransferModal.KeepsApart.destinationPlace_ne (h : modal.KeepsApart network app)
    {request : ModalTask} (hrequest : request ∈ modal.inFlight) {sourceClient : S3Client}
    {destinationClient : Option S3Client} {item : TransferItem}
    {overwritePolicy : OverwritePolicy} {isMove : Bool}
    (htask : request.task =
      .runTransfer sourceClient destinationClient item overwritePolicy isMove) :
    item.destinationPlace network destinationClient ≠
      some (item.source.place network sourceClient) := by
  intro hplace
  have hapart := h.carries.inFlight request hrequest
  have huses := h.inFlight request hrequest
  rw [htask] at hapart huses
  obtain ⟨sourceBucket, sourceKey, id, bucket, key, rfl, hapart⟩ := hapart
  obtain ⟨client, rfl, hsame⟩ := Option.map_eq_some_iff.mp hplace
  simp only [TransferEndpoint.place, Place.object.injEq] at hsame
  obtain ⟨hserver, rfl, rfl⟩ := hsame
  apply hapart
  refine ⟨rfl, rfl, client.endpoint, huses.2 _ _ _ _ rfl rfl, ?_⟩
  rw [← huses.1]
  exact hserver

variable [DecidableEq σ] {platform : Platform}

theorem TransferModal.KeepsApart.step (h : modal.KeepsApart network app)
    (hholds : modal.HoldsBack network) {event : ModalEvent σ}
    (hkeeps : modal.KeepsConnections event) :
    (modal.step platform network event).KeepsApart network app where
  starts := h.starts.step event
  connections := h.connections.trans (step_sameConnections h.starts.own hkeeps)
  carries := h.carries.step h.starts
    (fun _ htransfer hcan => object_apart h hholds htransfer hcan) event
  inFlight := step_usesConnections h.starts.own h.connections h.inFlight event

theorem TransferModal.KeepsApart.blocksSelfMoves_iff (h : modal.KeepsApart network app) :
    modal.BlocksSelfMoves platform network ↔ modal.HoldsBack network := by
  have hstart : ∀ transfer, modal.app.transfer = some transfer →
      modal.app.SameObject network transfer →
      (modal.app.transferCanStart = false ↔ transfer.HeldBack) := by
    intro transfer htransfer hsame
    exact transferCanStart_eq_false_iff htransfer (h.starts.inMode transfer htransfer) hsame
  constructor
  · intro hblocks transfer htransfer hsame
    exact (hstart transfer htransfer hsame).mp (hblocks.start transfer htransfer hsame)
  · intro hholds
    refine ⟨fun transfer htransfer hsame => ?_, fun request hrequest => ?_⟩
    · exact (hstart transfer htransfer hsame).mpr (hholds transfer htransfer hsame)
    · intro sourceClient destinationClient item overwritePolicy isMove htask hplace
      exact absurd hplace (h.destinationPlace_ne hrequest htask)

/-- In a run of a modal that moves an object, under connections that stay, no move onto
itself can start and none deletes, exactly if whenever the destination is the object
itself, it is named by the current connection or the form cannot be sent. -/
theorem blocks_self_moves_iff (hopened : modal.Opened)
    (hmode : ∃ transfer, modal.app.transfer = some transfer ∧ transfer.mode = .moveObject)
    {events : List (ModalEvent σ)}
    (hkeeps : Along (TransferModal.step platform network) TransferModal.KeepsConnections modal
      events) :
    (∀ earlier, earlier <+: events →
      (run (TransferModal.step platform network) modal earlier).BlocksSelfMoves platform
        network) ↔
      ∀ earlier, earlier <+: events →
        (run (TransferModal.step platform network) modal earlier).HoldsBack network :=
  forall_prefix_congr (TransferModal.KeepsApart network modal.app)
    (TransferModal.BlocksSelfMoves platform network) (TransferModal.HoldsBack network)
    (fun _ h => h.blocksSelfMoves_iff) (fun _ _ h hkeeps hholds => h.step hholds hkeeps)
    (hopened.keepsApart hmode) hkeeps

end SelfMoves

/-- A move to another key is not onto itself. -/
theorem blocks_self_moves_iff_apart :
    (run (TransferModal.step .unix plainNetwork) (modalFor .openMoveObject)
      untilMove).BlocksSelfMoves .unix plainNetwork := by
  have hkeeps : Along (TransferModal.step .unix plainNetwork) TransferModal.KeepsConnections
      (modalFor .openMoveObject) untilMove := ⟨trivial, trivial, trivial, trivial⟩
  refine (blocks_self_moves_iff (modalFor_opened (.inr rfl)) ⟨_, rfl, rfl⟩ hkeeps).mpr ?_
    untilMove (List.prefix_refl _)
  intro earlier hearlier transfer htransfer _
  have hcurrent : ∀ earlier ∈ untilMove.inits,
      (run (TransferModal.step .unix plainNetwork) (modalFor .openMoveObject)
        earlier).app.transfer.map (·.destinationConnectionId) = some CURRENT_CONNECTION_ID := by
    decide
  have hid := hcurrent earlier (List.mem_inits _ _ |>.mpr hearlier)
  rw [htransfer] at hid
  exact .inl (Option.some.inj hid)

/-- The modal of a move, with the server of the client saved as a connection too. -/
def aliasedModal : TransferModal Str :=
  let modal := modalFor .openMoveObject
  { modal with
    app :=
      { modal.app with
        connections :=
          [{ name := "b".toList, endpoint := fallbackClient.endpoint
             region := fallbackClient.region }] } }

/-- The conflict of an earlier start is answered by overwriting all; then the saved
connection is chosen, and the object itself named. -/
def untilSelfMove : List (ModalEvent Str) :=
  untilConflict ++
    [.user calm .transferConflictOverwriteAll, .finish calm 0 emptyReplies servedVerdicts,
      .user calm (.transferDestinationConnectionChanged "b".toList),
      .finish calm 0 emptyReplies servedVerdicts,
      .user calm (.transferDestinationBucketChanged "photos".toList),
      .user calm (.transferDestinationKeyChanged "x".toList), .user calm .startTransfer,
      .finish calm 0 emptyReplies servedVerdicts]

/-- The step that moves `photos/x` onto itself. -/
theorem mem_untilSelfMove :
    ∃ request ∈ (run (TransferModal.step .unix plainNetwork) aliasedModal untilSelfMove).inFlight,
      request.task = .runTransfer fallbackClient (some fallbackClient)
        ⟨.s3 CURRENT_CONNECTION_ID "photos".toList "x".toList,
          .s3 "b".toList "photos".toList "x".toList⟩ .overwriteAll true :=
  ⟨_, List.mem_cons_self, rfl⟩

/-- Under another id of its own server an object is moved onto itself, and deleted. -/
theorem aliased_move_deletes :
    ¬ ∀ (modal : TransferModal Str), modal.Opened →
      (∃ transfer, modal.app.transfer = some transfer ∧ transfer.mode = .moveObject) → ∀ events,
      Along (TransferModal.step .unix plainNetwork) TransferModal.KeepsConnections modal events →
      ∀ earlier, earlier <+: events →
        (run (TransferModal.step .unix plainNetwork) modal earlier).BlocksSelfMoves .unix
          plainNetwork := by
  intro h
  have hopened : aliasedModal.Opened := by
    have hmodal := @modalFor_opened .openMoveObject (.inr rfl)
    exact ⟨hmodal.fresh, hmodal.inFlight, hmodal.outcomes⟩
  have hblocks := h aliasedModal hopened ⟨_, rfl, rfl⟩ untilSelfMove
    (by repeat' constructor) untilSelfMove (List.prefix_refl _)
  obtain ⟨request, hrequest, htask⟩ := mem_untilSelfMove
  have hdeletes := hblocks.deletes request hrequest _ _ _ _ _ htask rfl servedVerdicts twoObjects
  unfold Requests.Ends at hdeletes
  revert hdeletes
  decide

end AbixioUi
