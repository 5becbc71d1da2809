import AbixioUi.App.TransferConsent
import AbixioUi.App.TransferLanding

/-! # Moving an object

The modal on one object prepares a single item, from the object to the destination of
the form. A step of a move copies and then deletes; a step that overwrites in answer
to a conflict is a plain copy, in a move too, and leaves the source where it is.
-/

namespace AbixioUi

open Foundation

/-! ## The item of the modal -/

/-- The item of a modal on one object. -/
def TransferState.object (transfer : TransferState) : TransferItem where
  source := .s3 CURRENT_CONNECTION_ID (transfer.sourceBucket.getD [])
    (transfer.sourceKey.getD [])
  destination := .s3 transfer.destinationConnectionId transfer.destinationBucket
    transfer.destinationKey

/-- The items of a task, none of them listed from a folder or a prefix. -/
def AppTask.Carries (P : TransferItem → Prop) : AppTask → Prop
  | .prepareTransfer items => ∀ item ∈ items, P item
  | .prepareImport _ _ _ | .prepareExport _ _ _ _ => False
  | .runTransfer _ _ item _ _ => P item
  | _ => True

def Message.Carries (P : TransferItem → Prop) : Message → Prop
  | .transferPrepared (.ok items) => ∀ item ∈ items, P item
  | .transferStepFinished (.ok (.conflict item)) => P item
  | _ => True

structure TransferState.Carries (P : TransferItem → Prop) (transfer : TransferState) : Prop where
  items : ∀ item ∈ transfer.items, P item
  pending : ∀ item, transfer.pendingConflict = some item → P item

/-- Every item of the modal has the property. -/
structure TransferModal.Carries {σ : Type} (P : TransferItem → Prop) (modal : TransferModal σ) :
    Prop where
  transfer : ∀ transfer, modal.app.transfer = some transfer → transfer.Carries P
  inFlight : ∀ request ∈ modal.inFlight, request.task.Carries P

section Carrying

variable {platform : Platform} {surroundings : Surroundings} {app : App}
  {transfer next after : TransferState} {tasks : List AppTask} {message : Message}
  {P : TransferItem → Prop}

theorem Answers.carries {task : AppTask} (h : Answers task message) (hcarries : task.Carries P) :
    message.Carries P := by
  cases h with
  | captured items => exact hcarries
  | imported _ _ _ _ | exported _ _ _ _ _ => exact False.elim hcarries
  | step _ _ item _ _ result hasks =>
      cases result with
      | error error => trivial
      | ok result =>
          cases result with
          | conflict other =>
              obtain ⟨rfl, -⟩ := hasks other rfl
              exact hcarries
          | copied _ | skipped _ => trivial
  | buckets _ _ | refused _ => trivial

theorem transferStepTask_carries {item : TransferItem} (hitem : P item)
    (overwritePolicy : OverwritePolicy) (isMove : Bool) :
    (app.transferStepTask surroundings item overwritePolicy isMove).Carries P := by
  unfold App.transferStepTask
  split
  next => exact hitem
  next => trivial

theorem Proceeds.carries (h : Proceeds platform surroundings app next after tasks)
    (hitems : ∀ item ∈ next.items, P item) :
    after.Carries P ∧ ∀ task ∈ tasks, task.Carries P := by
  cases h with
  | step item hitem =>
      refine ⟨⟨hitems, fun _ hpending => by cases hpending⟩, fun task htask => ?_⟩
      rw [List.mem_singleton.mp htask]
      exact transferStepTask_carries (hitems item (List.mem_of_getElem? hitem)) _ _
  | done _ _ htasks =>
      refine ⟨⟨hitems, fun _ hpending => by cases hpending⟩, fun task htask => ?_⟩
      obtain ⟨client, bucket, keyPrefix, rfl⟩ := htasks task htask
      trivial

/-- A modal that moves gets no new item but the object at a start. -/
theorem ModalMove.carries (h : ModalMove platform surroundings app transfer message after tasks)
    (hmode : transfer.mode = .moveObject)
    (hstart : app.transferCanStart = true → P transfer.object)
    (hcarries : transfer.Carries P) (hmessage : message.Carries P) :
    after.Carries P ∧ ∀ task ∈ tasks, task.Carries P := by
  have hnothing : ∀ task ∈ ([] : List AppTask), task.Carries P := fun task htask => by cases htask
  cases h with
  | edited _ _ _ _ _ _ _ _ _ _ htasks =>
      refine ⟨⟨hcarries.items, hcarries.pending⟩, fun task htask => ?_⟩
      obtain ⟨client, rfl⟩ := htasks task htask
      trivial
  | ignored _ _ => exact ⟨hcarries, hnothing⟩
  | started hcan =>
      refine ⟨⟨hcarries.items, hcarries.pending⟩, fun task htask => ?_⟩
      rw [List.mem_singleton.mp htask]
      unfold TransferState.prepareTask
      rw [hmode]
      intro item hitem
      rw [List.mem_singleton.mp hitem]
      exact hstart hcan
  | unprepared _ => exact ⟨⟨hcarries.items, hcarries.pending⟩, hnothing⟩
  | empty => exact ⟨⟨hmessage, fun _ hpending => by cases hpending⟩, hnothing⟩
  | prepared _ _ _ _ hproceeds => exact hproceeds.carries hmessage
  | conflict item =>
      refine ⟨⟨hcarries.items, fun other hother => ?_⟩, hnothing⟩
      rw [← Option.some.inj hother]
      exact hmessage
  | finished _ _ _ _ _ _ hproceeds => exact hproceeds.carries hcarries.items
  | skipped _ _ _ _ _ _ _ hproceeds => exact hproceeds.carries hcarries.items
  | overwritten _ _ item hpending _ =>
      refine ⟨⟨hcarries.items, fun _ hnone => by cases hnone⟩, fun task htask => ?_⟩
      rw [List.mem_singleton.mp htask]
      exact transferStepTask_carries (hcarries.pending item hpending) _ _

theorem Message.carries_of_inTransfer (h : message.inTransfer = true) : message.Carries P := by
  cases message <;> trivial

end Carrying

section Modals

variable {σ : Type} {platform : Platform} {network : Network σ} {modal : TransferModal σ}
  {P : TransferItem → Prop}

theorem TransferModal.Carries.step [DecidableEq σ] (h : modal.Carries P)
    (hstarts : modal.Starts .moveObject)
    (hstart : ∀ transfer, modal.app.transfer = some transfer →
      modal.app.transferCanStart = true → P transfer.object) (event : ModalEvent σ) :
    (modal.step platform network event).Carries P := by
  cases @modal_turn σ _ platform network modal hstarts.own event with
  | still htransfer hinFlight =>
      refine ⟨fun transfer hsome => ?_, fun request hrequest => ?_⟩
      · rw [htransfer] at hsome
        exact h.transfer transfer hsome
      · exact h.inFlight request (hinFlight request hrequest)
  | heard surroundings message transfer next tasks hheard htransfer hmove hnext hinFlight =>
      have hmessage : message.Carries P := by
        rcases hheard with huser | ⟨request, hrequest, hanswers⟩
        · exact Message.carries_of_inTransfer huser
        · exact hanswers.carries (h.inFlight request hrequest)
      obtain ⟨hafter, htasks⟩ := hmove.carries (hstarts.inMode transfer htransfer)
        (hstart transfer htransfer) (h.transfer transfer htransfer) hmessage
      refine ⟨fun after hsome => ?_, fun request hrequest => ?_⟩
      · rw [Option.some.inj (hsome.symm.trans hnext)]
        exact hafter
      · rcases hinFlight request hrequest with hold | hnew
        · exact h.inFlight request hold
        · exact htasks _ (mem_modalTasks hnew)

theorem TransferModal.Opened.carries (h : modal.Opened) : modal.Carries P := by
  obtain ⟨fresh, hfresh, hopened⟩ := h.fresh
  constructor
  · intro transfer htransfer
    obtain rfl := Option.some.inj (hfresh.symm.trans htransfer)
    constructor
    · rw [hopened.items]
      exact fun _ hitem => by cases hitem
    · rw [hopened.pendingConflict]
      exact fun _ hpending => by cases hpending
  · intro request hrequest
    obtain ⟨client, hclient⟩ := h.inFlight request hrequest
    rw [hclient]
    trivial

end Modals

/-! ## What a move has to do -/

def TransferRequest.copies : TransferRequest → Bool
  | .copyObject _ _ _ _ _ => true
  | _ => false

def TransferRequest.deletes : TransferRequest → Bool
  | .deleteObject _ _ _ => true
  | _ => false

/-- Every delete comes after a copy that was answered. -/
def CopiesFirst (journal : List (TransferRequest × Bool)) : Prop :=
  ∀ (index : Nat) (entry : TransferRequest × Bool), journal[index]? = some entry →
    entry.1.deletes = true →
    ∃ (earlier : Nat) (copy : TransferRequest × Bool), earlier < index ∧
      journal[earlier]? = some copy ∧ copy.1.copies = true ∧ copy.2 = true

/-- A move that is reported has moved the content; a delete follows an answered copy, and
without such a copy the source is untouched. -/
structure Moved {σ : Type} (source destination : Place σ) (before : Stored σ)
    (result : Except String TransferStepResult) (session : TransferSession σ) : Prop where
  copied : ∀ label, result = .ok (.copied label) →
    (∃ content, before.contents source = some content ∧
      session.store.contents destination = some content) ∧
    session.store.contents source = none
  copiesFirst : CopiesFirst session.journal
  kept : (∀ entry ∈ session.journal, entry.1.copies = true → entry.2 = false) →
    session.store.contents source = before.contents source

/-- The server of the source reads its name as it is, and can put the copy where it
belongs, away from the source. -/
def ObjectTransfer.Reaches {σ : Type} (network : Network σ) (transfer : ObjectTransfer)
    (read : Str × Str) : Prop :=
  read = (transfer.sourceBucket, transfer.sourceKey) ∧
    transfer.sourceClient.server network = transfer.destinationClient.server network ∧
    ¬ (transfer.sourceBucket = transfer.destinationBucket ∧
      transfer.sourceKey = transfer.destinationKey)

/-- What the server reads the text of the copy source for. -/
def ObjectTransfer.Reads {σ : Type} (network : Network σ) (transfer : ObjectTransfer)
    (read : Str × Str) : Prop :=
  network.readCopySource (transfer.sourceBucket ++ '/' :: transfer.sourceKey) = some read

theorem copiesFirst_of_no_delete {journal : List (TransferRequest × Bool)}
    (h : ∀ entry ∈ journal, entry.1.deletes = false) : CopiesFirst journal := by
  intro index entry hentry hdeletes
  rw [h entry (List.mem_of_getElem? hentry)] at hdeletes
  cases hdeletes

theorem copiesFirst_of_move (transfer : ObjectTransfer) (found answered : Bool) :
    CopiesFirst [(transfer.headRequest, found), (transfer.copyRequest, true),
      (transfer.deleteRequest, answered)] := by
  intro index entry hentry hdeletes
  match index with
  | 0 | 1 =>
      obtain rfl := Option.some.inj hentry
      cases hdeletes
  | 2 => exact ⟨1, _, by omega, rfl, rfl, rfl⟩
  | index + 3 => cases hentry

section Moving

variable {σ : Type} {network : Network σ} {platform : Platform}
  {verdicts : TransferVerdicts} {transfer : ObjectTransfer} {overwritePolicy : OverwritePolicy}
  {isMove : Bool}

theorem copiesToDestination_iff :
    CopiesToDestination network transfer.sourceClient transfer.destinationClient
        transfer.destinationBucket transfer.destinationKey true
        (.s3 transfer.sourceId transfer.sourceBucket transfer.sourceKey) ↔
      ∀ read, transfer.Reads network read → transfer.Reaches network read := by
  simp [CopiesToDestination, ObjectTransfer.Reads, ObjectTransfer.Reaches]

theorem copyPlace_ne_sourcePlace {read : Str × Str} (h : transfer.Reaches network read) :
    transfer.sourcePlace network ≠ transfer.copyPlace network := by
  intro heq
  simp only [ObjectTransfer.sourcePlace, ObjectTransfer.copyPlace, Place.object.injEq] at heq
  exact h.2.2 heq.2

variable [DecidableEq σ]

/-- Where the condition holds, every end of a step is that of a move. -/
theorem ObjectStep.moved_of_reaches
    (h : ∀ read, transfer.Reads network read → isMove = true ∧ transfer.Reaches network read)
    {label : String} {storage : Stored σ} {found : Bool}
    {result : Except String TransferStepResult} {session : TransferSession σ}
    (hstep : ObjectStep network verdicts transfer overwritePolicy isMove label storage found
      result session) :
    Moved (transfer.sourcePlace network) (transfer.destinationPlace network) storage result
      session := by
  have hread : ∀ {content}, transfer.CopySource network storage content →
      isMove = true ∧ transfer.sourcePlace network ≠ transfer.copyPlace network := by
    rintro content ⟨read, hread, -⟩
    obtain ⟨hmove, hreaches⟩ := h read hread
    exact ⟨hmove, copyPlace_ne_sourcePlace hreaches⟩
  cases hstep with
  | conflict _ _ | skipped _ _ =>
      refine ⟨fun _ => nofun, copiesFirst_of_no_delete ?_, fun _ => rfl⟩
      intro entry hentry
      rw [List.mem_singleton.mp hentry]
      rfl
  | copyFailed error store _ _ hstore =>
      refine ⟨fun _ => nofun, copiesFirst_of_no_delete ?_, fun _ => ?_⟩
      · intro entry hentry
        rcases List.mem_cons.mp hentry with rfl | hentry
        · rfl
        · rw [List.mem_singleton.mp hentry]
          rfl
      · rcases hstore with rfl | ⟨content, hsource, rfl⟩
        · rfl
        · exact put_of_ne (hread hsource).2
  | copied content hmove _ hsource =>
      rw [(hread hsource).1] at hmove
      cases hmove
  | moved content hmove _ hsource =>
      refine ⟨fun label _ => ⟨?_, remove_self _ _⟩, copiesFirst_of_move transfer found true,
        fun hnone => ?_⟩
      · have hcopies := copiesToDestination_iff.mpr fun read hread => (h read hread).2
        exact (objects_land hsource (if_pos rfl).symm hcopies).arrived
      · cases hnone (transfer.copyRequest, true) (by simp) rfl
  | deleteFailed error content store hmove _ _ hsource _ =>
      refine ⟨fun _ => nofun, copiesFirst_of_move transfer found false, fun hnone => ?_⟩
      cases hnone (transfer.copyRequest, true) (by simp) rfl

/-- A copy that is not a move leaves the source where it is. -/
theorem exists_kept_source {read : Str × Str} (hread : transfer.Reads network read) :
    ∃ storage : Stored σ,
      (runTransferStep network uncheckedVerdicts platform transfer.sourceClient
        (some transfer.destinationClient) transfer.item overwritePolicy false).Ends
        (Session.start storage) fun result session =>
          result = .ok (.copied (transfer.item.label platform)) ∧
            session.store.contents (transfer.sourcePlace network) ≠ none := by
  let readPlace : Place σ := .object (transfer.sourceClient.server network) read.1 read.2
  let storage := misreadStorage (transfer.sourcePlace network) readPlace
  have hsource : transfer.CopySource network storage [0] := ⟨read, hread, if_pos rfl⟩
  refine ⟨storage, (runTransferStep_unchecked transfer overwritePolicy false hsource).mono ?_⟩
  rintro result session ⟨hresult, hafter⟩
  refine ⟨hresult, ?_⟩
  rw [hafter, if_neg Bool.false_ne_true]
  by_cases hplace : transfer.sourcePlace network = transfer.copyPlace network
  · rw [hplace, put_self]
    exact Option.some_ne_none _
  · rw [put_of_ne hplace]
    simp only [storage, misreadStorage]
    split
    · exact Option.some_ne_none _
    · rw [if_pos True.intro]
      exact Option.some_ne_none _

/-- A step moves, whatever is stored and whatever becomes of its requests, exactly if it
is started as a move and every reading of the source's name lets the copy arrive. -/
theorem runTransferStep_moved_iff :
    (∀ verdicts storage,
      (runTransferStep network verdicts platform transfer.sourceClient
        (some transfer.destinationClient) transfer.item overwritePolicy isMove).Ends
        (Session.start storage)
        (Moved (transfer.sourcePlace network) (transfer.destinationPlace network) storage)) ↔
      ∀ read, transfer.Reads network read → isMove = true ∧ transfer.Reaches network read := by
  constructor
  · intro h
    have hmoves : ∀ read, transfer.Reads network read → isMove = true := by
      intro read hread
      cases hmove : isMove with
      | true => rfl
      | false =>
          subst hmove
          obtain ⟨storage, hcopied, hkept⟩ :=
            @exists_kept_source σ network platform transfer overwritePolicy _ read hread
          exact absurd ((h uncheckedVerdicts storage).copied _ hcopied).2 hkept
    intro read hread
    obtain rfl := hmoves read hread
    refine ⟨rfl, copiesToDestination_iff.mp ?_ read hread⟩
    by_contra hmiss
    obtain ⟨storage, hcopied, hmissed⟩ :=
      @exists_missed_copy σ network _ platform transfer overwritePolicy true hmiss
    exact hmissed ((h uncheckedVerdicts storage).copied _ hcopied).1
  · intro h verdicts storage
    apply Requests.Ends.mono (runTransferStep_objects transfer overwritePolicy isMove storage)
    intro result session hstep
    exact hstep.moved_of_reaches h

end Moving

/-! ## Runs of a move -/

/-- The step in flight ends as a move has to, whatever is stored and whatever becomes of
its requests. -/
def ModalTask.Moves {σ : Type} [DecidableEq σ] (platform : Platform) (network : Network σ)
    (request : ModalTask) : Prop :=
  ∀ sourceClient destinationClient item overwritePolicy isMove,
    request.task = .runTransfer sourceClient destinationClient item overwritePolicy isMove →
    ∀ place, item.destinationPlace network destinationClient = some place →
    ∀ verdicts storage,
      (runTransferStep network verdicts platform sourceClient destinationClient item
        overwritePolicy isMove).Ends (Session.start storage)
        (Moved (item.source.place network sourceClient) place storage)

/-- A step that ends has moved its object as it has to; a message of the user, an answer
to a conflict among them, changes nothing that is stored. -/
def MovesObject {σ : Type} [DecidableEq σ] (platform : Platform) (network : Network σ)
    (t : Transition (TransferModal σ) (ModalEvent σ)) : Prop :=
  match t.event with
  | .user _ _ => t.after.storage = t.before.storage
  | .finish _ index _ _ =>
      ∀ request, t.before.inFlight[index]? = some request → request.Moves platform network
  | .elsewhere _ _ => True

/-- The step is not the answer to a conflict, and its copy reaches the destination. -/
def ModalTask.CopiesToMove {σ : Type} (network : Network σ) (request : ModalTask) : Prop :=
  ∀ (transfer : ObjectTransfer) overwritePolicy isMove,
    request.task = .runTransfer transfer.sourceClient (some transfer.destinationClient)
      transfer.item overwritePolicy isMove →
    ∀ read, transfer.Reads network read →
      request.overwrites = false ∧ transfer.Reaches network read

/-- The event ends no step but one that copies as a move has to. -/
def TransferModal.EndsMoves {σ : Type} (network : Network σ) (modal : TransferModal σ) :
    ModalEvent σ → Prop
  | .finish _ index _ _ =>
      ∀ request, modal.inFlight[index]? = some request → request.CopiesToMove network
  | _ => True

def TransferItem.IsObject (item : TransferItem) : Prop :=
  ∃ sourceId sourceBucket sourceKey destinationId destinationBucket destinationKey,
    item = ⟨.s3 sourceId sourceBucket sourceKey,
      .s3 destinationId destinationBucket destinationKey⟩

section MoveRuns

variable {σ : Type} [DecidableEq σ] {platform : Platform} {network : Network σ}

theorem ModalTask.moves_iff {request : ModalTask} (hstarted : request.Started .moveObject)
    (hcarries : request.task.Carries TransferItem.IsObject) :
    request.Moves platform network ↔ request.CopiesToMove network := by
  constructor
  · intro h transfer overwritePolicy isMove htask read hread
    have hmoved := (@runTransferStep_moved_iff σ network platform transfer overwritePolicy isMove
      _).mp (h _ _ _ _ _ htask _ rfl)
    obtain ⟨hmove, hreaches⟩ := hmoved read hread
    refine ⟨?_, hreaches⟩
    cases hanswer : request.overwrites with
    | false => rfl
    | true =>
        obtain ⟨-, hplain⟩ := (hstarted.arguments _ _ _ _ _ htask).2.1 hanswer
        exact absurd (hplain.symm.trans hmove) Bool.false_ne_true
  · intro h sourceClient destinationClient item overwritePolicy isMove htask place hplace
    have hobject : item.IsObject := by
      rw [htask] at hcarries
      exact hcarries
    obtain ⟨sourceId, sourceBucket, sourceKey, destinationId, bucket, key, rfl⟩ := hobject
    obtain ⟨client, rfl, rfl⟩ := Option.map_eq_some_iff.mp hplace
    let transfer : ObjectTransfer :=
      ⟨sourceClient, client, sourceId, sourceBucket, sourceKey, destinationId, bucket, key⟩
    apply (@runTransferStep_moved_iff σ network platform transfer overwritePolicy isMove _).mpr
    intro read hread
    obtain ⟨hanswer, hreaches⟩ := h transfer overwritePolicy isMove htask read hread
    exact ⟨((hstarted.arguments _ _ _ _ _ htask).2.2 hanswer).2, hreaches⟩

theorem step_user_storage (modal : TransferModal σ) (surroundings : Surroundings)
    (message : Message) :
    (modal.step platform network (.user surroundings message)).storage = modal.storage := by
  unfold TransferModal.step
  simp only
  split <;> rfl

/-- A run of a modal that moves an object moves it at every end of a step, and touches
nothing at any answer, exactly if no step that ends was the answer to a conflict, and
the copy of each reaches its destination. -/
theorem moves_objects_iff {modal : TransferModal σ} (hopened : modal.Opened)
    (hmode : ∃ transfer, modal.app.transfer = some transfer ∧ transfer.mode = .moveObject)
    (events : List (ModalEvent σ)) :
    (∀ t ∈ transitions (TransferModal.step platform network) modal events,
      MovesObject platform network t) ↔
      Along (TransferModal.step platform network) (TransferModal.EndsMoves network) modal
        events := by
  have hstarts : modal.Starts .moveObject := hopened.startsIn hmode
  have hinvariant : ∀ t ∈ transitions (TransferModal.step platform network) modal events,
      (t.before.Starts .moveObject ∧ t.before.Carries TransferItem.IsObject) ∧
        t.after = t.before.step platform network t.event := by
    intro t ht
    obtain ⟨hbefore, -, hafter⟩ := @transitions_invariant _ _ _ (fun _ _ => True)
      (fun modal => modal.Starts .moveObject ∧ modal.Carries TransferItem.IsObject)
      (fun modal event h _ => ⟨h.1.step event,
        h.2.step h.1 (fun _ _ _ => ⟨_, _, _, _, _, _, rfl⟩) event⟩)
      modal events ⟨hstarts, hopened.carries⟩ (along_true _ _) t ht
    exact ⟨hbefore, hafter⟩
  rw [along_iff_transitions]
  refine forall₂_congr fun t ht => ?_
  obtain ⟨⟨hbefore, hcarries⟩, hafter⟩ := hinvariant t ht
  unfold MovesObject
  cases hevent : t.event with
  | user surroundings message =>
      rw [hafter, hevent, step_user_storage]
      exact iff_of_true rfl trivial
  | finish surroundings index replies verdicts =>
      refine forall₂_congr fun request hrequest => ?_
      have hmem := List.mem_of_getElem? hrequest
      exact ModalTask.moves_iff (hbefore.started request hmem) (hcarries.inFlight request hmem)
  | elsewhere app storage => exact Iff.rfl

end MoveRuns

/-! ## One object -/

/-- A move is started to `photos/z`, where nothing is, and its item prepared. -/
def untilMove : List (ModalEvent Str) :=
  [.user calm (.transferDestinationKeyChanged "z".toList), .user calm .startTransfer,
    .finish calm 0 emptyReplies servedVerdicts]

/-- The move of `photos/x` to `photos/z`. -/
def xToZ : ObjectTransfer where
  sourceClient := fallbackClient
  destinationClient := fallbackClient
  sourceId := CURRENT_CONNECTION_ID
  sourceBucket := "photos".toList
  sourceKey := "x".toList
  destinationId := CURRENT_CONNECTION_ID
  destinationBucket := "photos".toList
  destinationKey := "z".toList

theorem inFlight_untilMove :
    (run (TransferModal.step .unix plainNetwork) (modalFor .openMoveObject) untilMove).inFlight =
      [{ task := .runTransfer fallbackClient (some fallbackClient) xToZ.item .ask true
         item := some xToZ.item
         policy := .ask
         overwrites := false }] := rfl

/-- The end of a move to a key where nothing is in the way. -/
theorem moves_objects_iff_served :
    MovesObject .unix plainNetwork
      ⟨run (TransferModal.step .unix plainNetwork) (modalFor .openMoveObject) untilMove,
        .finish calm 0 emptyReplies servedVerdicts,
        (run (TransferModal.step .unix plainNetwork) (modalFor .openMoveObject)
          untilMove).step .unix plainNetwork (.finish calm 0 emptyReplies servedVerdicts)⟩ := by
  refine (moves_objects_iff (modalFor_opened (.inr rfl)) ⟨_, rfl, rfl⟩ _).mpr ?_ _
    (transition_mem _ _ _ [])
  refine (along_append _ _ _).mpr ⟨⟨trivial, trivial, ?_, trivial⟩, ?_, trivial⟩
  · intro request hrequest transfer overwritePolicy isMove htask
    rw [← Option.some.inj hrequest] at htask
    exact AppTask.noConfusion htask
  · intro request hrequest transfer overwritePolicy isMove htask read hread
    rw [inFlight_untilMove] at hrequest
    obtain rfl := Option.some.inj hrequest
    have htransfer : transfer = xToZ := by
      cases transfer
      simp only [AppTask.runTransfer.injEq, ObjectTransfer.item, TransferItem.mk.injEq,
        TransferEndpoint.s3.injEq, Option.some.injEq] at htask
      obtain ⟨rfl, rfl, ⟨⟨rfl, rfl, rfl⟩, rfl, rfl, rfl⟩, -, -⟩ := htask
      rfl
    subst htransfer
    obtain rfl := Option.some.inj hread
    exact ⟨rfl, rfl, rfl, by decide⟩

/-- A conflict answered by overwriting is reported as copied, and the source stays. -/
theorem overwriting_answer_keeps_source :
    ¬ ∀ (modal : TransferModal Str), modal.Opened →
      (∃ transfer, modal.app.transfer = some transfer ∧ transfer.mode = .moveObject) → ∀ events,
      ∀ t ∈ transitions (TransferModal.step .unix plainNetwork) modal events,
        MovesObject .unix plainNetwork t := by
  intro h
  have hmoves := h (modalFor .openMoveObject) (modalFor_opened (.inr rfl)) ⟨_, rfl, rfl⟩ _ _
    (transition_mem _ (untilConflict ++ [.user calm .transferConflictOverwrite])
      (.finish calm 0 emptyReplies servedVerdicts) [])
  have hmoved := hmoves _ rfl _ _ _ _ _ rfl _ rfl servedVerdicts twoObjects
  have hgone := (hmoved.copied _ rfl).2
  revert hgone
  decide

end AbixioUi
