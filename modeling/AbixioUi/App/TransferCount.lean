import AbixioUi.App.TransferRun

/-! # Counting transfer items

The counters of a transfer assume that its steps run one after the other. A pending
conflict lets the user start a preparation beside it, so a step and a new list can
come together; as long as no new list arrives while a step is in flight or while the
summary of the last list is shown, every item has one outcome.
-/

namespace AbixioUi

open Foundation

/-! ## The counters -/

/-- The summary tells the counters of a finished list. -/
def TransferState.ShowsDone (transfer : TransferState) : Prop :=
  ∃ counted : TransferState, transfer.summary = some counted.doneSummary

/-- The items before the next one have an outcome each, and the counters count them. -/
structure Tallied (transfer : TransferState) (outcomes : List (TransferItem × ItemOutcome)) :
    Prop where
  listed : outcomes.map (·.1) = transfer.items.take transfer.nextIndex
  next_le : transfer.nextIndex ≤ transfer.items.length
  copied_eq : transfer.completed = outcomes.countP (·.2 = .copied)
  skipped_eq : transfer.skipped = outcomes.countP (·.2 = .skipped)
  failed_eq : transfer.failed = outcomes.countP (·.2 = .failed)

/-- The steps in flight. -/
def stepsOf (inFlight : List ModalTask) : List ModalTask := inFlight.filter (·.task.isStep)

/-- The counters are right, and at most one item is being worked on: the next one, by a
step or in a conflict. -/
structure Steady (transfer : TransferState) (inFlight : List ModalTask)
    (outcomes : List (TransferItem × ItemOutcome)) : Prop where
  tallied : Tallied transfer outcomes
  atWork : (stepsOf inFlight).length + (if transfer.pendingConflict.isSome then 1 else 0) ≤ 1
  stepItem : ∀ request ∈ stepsOf inFlight, ∃ item, request.item = some item ∧
    transfer.items[transfer.nextIndex]? = some item ∧
    ∀ sourceClient destinationClient other overwritePolicy isMove,
      request.task = .runTransfer sourceClient destinationClient other overwritePolicy isMove →
      other = item
  pendingItem : ∀ item, transfer.pendingConflict = some item →
    transfer.items[transfer.nextIndex]? = some item
  done : transfer.ShowsDone → transfer.nextIndex = transfer.items.length

section Counting

variable {platform : Platform} {surroundings : Surroundings} {app : App}
  {inFlight : List ModalTask} {transfer next after : TransferState} {tasks : List AppTask}
  {message : Message}
  {outcomes : List (TransferItem × ItemOutcome)} {item : TransferItem}

theorem doneSummary_head (counted : TransferState) :
    counted.doneSummary.toList.head? = some 'D' := by
  have hdone : "Done. Copied: ".toList = 'D' :: "one. Copied: ".toList := by decide
  unfold TransferState.doneSummary
  simp only [String.toList_append, List.append_assoc]
  rw [hdone]
  rfl

/-- The other summaries start with another letter. -/
theorem not_showsDone_of_summary {summary : Option String} (h : transfer.summary = summary)
    (hsummary : ∀ text, summary = some text → text.toList.head? ≠ some 'D') :
    ¬ transfer.ShowsDone := by
  rintro ⟨counted, hcounted⟩
  rw [h] at hcounted
  exact hsummary _ hcounted (doneSummary_head counted)

/-- An item that gets an outcome is counted once. -/
theorem Tallied.counting (h : Tallied transfer outcomes)
    (hitem : transfer.items[transfer.nextIndex]? = some item) (outcome : ItemOutcome) :
    Tallied (transfer.counting outcome) (outcomes ++ [(item, outcome)]) := by
  obtain ⟨hindex, hget⟩ := List.getElem?_eq_some_iff.mp hitem
  refine ⟨?_, ?_, ?_, ?_, ?_⟩
  · simp only [TransferState.counting, List.map_append, h.listed, List.map_cons, List.map_nil]
    rw [← hget]
    exact List.take_append_getElem hindex
  · simp only [TransferState.counting]
    omega
  all_goals
    cases outcome <;>
      simp [TransferState.counting, h.copied_eq, h.skipped_eq, h.failed_eq]

theorem Tallied.of_same (h : Tallied transfer outcomes) (hitems : next.items = transfer.items)
    (hnext : next.nextIndex = transfer.nextIndex) (hcompleted : next.completed = transfer.completed)
    (hskipped : next.skipped = transfer.skipped) (hfailed : next.failed = transfer.failed) :
    Tallied next outcomes :=
  ⟨by rw [hitems, hnext]; exact h.listed, by rw [hitems, hnext]; exact h.next_le,
    by rw [hcompleted]; exact h.copied_eq, by rw [hskipped]; exact h.skipped_eq,
    by rw [hfailed]; exact h.failed_eq⟩

/-! ## Starting steps -/

@[simp] theorem transferStepTask_isStep (overwritePolicy : OverwritePolicy) (isMove : Bool) :
    (app.transferStepTask surroundings item overwritePolicy isMove).isStep = true := by
  unfold App.transferStepTask
  split <;> rfl

theorem transferStepTask_item {overwritePolicy overwritePolicy' : OverwritePolicy}
    {isMove isMove' : Bool} {sourceClient : S3Client} {destinationClient : Option S3Client}
    {other : TransferItem}
    (h : app.transferStepTask surroundings item overwritePolicy isMove =
      .runTransfer sourceClient destinationClient other overwritePolicy' isMove') :
    other = item := by
  unfold App.transferStepTask at h
  split at h
  · simp only [AppTask.runTransfer.injEq] at h
    exact h.2.2.1.symm
  · cases h

theorem stepsOf_append (as bs : List ModalTask) : stepsOf (as ++ bs) = stepsOf as ++ stepsOf bs :=
  List.filter_append as bs

theorem stepsOf_modalTasks_eq_nil {before app' : App}
    (h : ∀ task ∈ tasks, task.isStep = false) :
    stepsOf (modalTasks before app' message tasks) = [] := by
  unfold stepsOf
  rw [List.filter_eq_nil_iff]
  intro request hrequest
  rw [h _ (mem_modalTasks hrequest)]
  exact Bool.false_ne_true

/-- One step starts where none is in flight, for the item that is next. -/
theorem Steady.of_started {rest : List ModalTask} {request : ModalTask}
    (htallied : Tallied after outcomes) (hrest : stepsOf rest = [])
    (hpending : after.pendingConflict = none)
    (hitem : after.items[after.nextIndex]? = some item) (hrequest : request.item = some item)
    (hstep : request.task.isStep = true)
    (htask : ∀ sourceClient destinationClient other overwritePolicy isMove,
      request.task = .runTransfer sourceClient destinationClient other overwritePolicy isMove →
      other = item)
    (hdone : ¬ after.ShowsDone) : Steady after (rest ++ [request]) outcomes := by
  have hsteps : stepsOf (rest ++ [request]) = [request] := by
    rw [stepsOf_append, hrest, List.nil_append]
    simp [stepsOf, hstep]
  refine ⟨htallied, ?_, ?_, ?_, fun h => absurd h hdone⟩
  · rw [hsteps, hpending]
    simp
  · intro other hother
    rw [hsteps, List.mem_singleton] at hother
    subst hother
    exact ⟨item, hrequest, hitem, htask⟩
  · intro other hother
    rw [hpending] at hother
    cases hother

/-- Nothing is being worked on. -/
theorem Steady.of_quiet {inFlight : List ModalTask} (htallied : Tallied after outcomes)
    (hsteps : stepsOf inFlight = []) (hpending : after.pendingConflict = none)
    (hdone : after.ShowsDone → after.nextIndex = after.items.length) :
    Steady after inFlight outcomes := by
  refine ⟨htallied, ?_, ?_, ?_, hdone⟩
  · rw [hsteps, hpending]
    simp
  · intro request hrequest
    rw [hsteps] at hrequest
    cases hrequest
  · intro other hother
    rw [hpending] at hother
    cases hother

theorem Proceeds.steady {before app' : App} {rest : List ModalTask}
    (h : Proceeds platform surroundings app next after tasks) (htallied : Tallied next outcomes)
    (hrest : stepsOf rest = []) (hdone : ¬ next.ShowsDone)
    (hafter : app'.transfer = some after) (hmessage : message.overwrites = false) :
    Steady after (rest ++ modalTasks before app' message tasks) outcomes := by
  cases h with
  | step item hitem =>
      refine Steady.of_started (htallied.of_same rfl rfl rfl rfl rfl) hrest rfl hitem ?_
        (transferStepTask_isStep _ _) (fun _ _ _ _ _ htask => transferStepTask_item htask) ?_
      · simp [hmessage, hafter, hitem]
      · rintro ⟨counted, hcounted⟩
        exact hdone ⟨counted, hcounted⟩
  | done tasks hend htasks =>
      have hquiet : stepsOf (rest ++ modalTasks before app' message tasks) = [] := by
        rw [stepsOf_append, hrest, stepsOf_modalTasks_eq_nil, List.append_nil]
        intro task htask
        obtain ⟨client, bucket, keyPrefix, rfl⟩ := htasks task htask
        rfl
      refine Steady.of_quiet (htallied.of_same rfl rfl rfl rfl rfl) hquiet rfl fun _ => ?_
      have hle := List.getElem?_eq_none_iff.mp hend
      have hnext := htallied.next_le
      show next.nextIndex = next.items.length
      omega

/-! ## One event -/

/-- The same work on the same list. -/
theorem Steady.mono {inFlight inFlight' : List ModalTask} (h : Steady transfer inFlight outcomes)
    (hitems : next.items = transfer.items) (hnext : next.nextIndex = transfer.nextIndex)
    (hcompleted : next.completed = transfer.completed) (hskipped : next.skipped = transfer.skipped)
    (hfailed : next.failed = transfer.failed)
    (hpending : next.pendingConflict = transfer.pendingConflict)
    (hdone : next.ShowsDone → transfer.ShowsDone)
    (hsteps : (stepsOf inFlight').Sublist (stepsOf inFlight)) : Steady next inFlight' outcomes := by
  refine ⟨h.tallied.of_same hitems hnext hcompleted hskipped hfailed, ?_, ?_, ?_, ?_⟩
  · rw [hpending]
    have hle := hsteps.length_le
    have hwork := h.atWork
    omega
  · intro request hrequest
    rw [hitems, hnext]
    exact h.stepItem request (hsteps.subset hrequest)
  · rw [hitems, hnext, hpending]
    exact h.pendingItem
  · intro hshows
    rw [hitems, hnext]
    exact h.done (hdone hshows)

theorem Steady.not_showsDone (h : Steady transfer inFlight outcomes)
    (hitem : transfer.items[transfer.nextIndex]? = some item) : ¬ transfer.ShowsDone := by
  intro hshows
  have hlt := (List.getElem?_eq_some_iff.mp hitem).choose
  have hend := h.done hshows
  omega

/-- While a conflict is pending no step is in flight. -/
theorem Steady.steps_of_pending (h : Steady transfer inFlight outcomes)
    (hpending : transfer.pendingConflict = some item) : stepsOf inFlight = [] := by
  have hwork := h.atWork
  rw [hpending] at hwork
  apply List.eq_nil_of_length_eq_zero
  simp only [Option.isSome_some, if_true] at hwork
  omega

/-- The step in flight is the only one, and no conflict is pending. -/
theorem Steady.only_step {index : Nat} {request : ModalTask}
    (h : Steady transfer inFlight outcomes) (hrequest : inFlight[index]? = some request)
    (hstep : request.task.isStep = true) :
    stepsOf (inFlight.eraseIdx index) = [] ∧ transfer.pendingConflict = none := by
  have hcount := countP_eraseIdx hrequest (·.task.isStep)
  rw [List.countP_eq_length_filter, List.countP_eq_length_filter] at hcount
  have hwork := h.atWork
  unfold stepsOf at hwork ⊢
  simp only [hstep, if_true] at hcount
  constructor
  · apply List.eq_nil_of_length_eq_zero
    omega
  · cases hpending : transfer.pendingConflict with
    | none => rfl
    | some item =>
        rw [hpending] at hwork
        simp only [Option.isSome_some, if_true] at hwork
        omega

/-- An edit of the destination leaves the work as it is. -/
theorem Steady.edited {inFlight' : List ModalTask} (h : Steady transfer inFlight outcomes)
    (connectionId bucket key : Str) (buckets : Option (Except String (List Str)))
    (loading : Bool) {summary : Option String}
    (hsummary : summary = none ∨ summary = transfer.summary)
    (hsteps : (stepsOf inFlight').Sublist (stepsOf inFlight)) :
    Steady
      { transfer with
        destinationConnectionId := connectionId
        destinationBucket := bucket
        destinationKey := key
        destinationBuckets := buckets
        loadingDestinationBuckets := loading
        summary := summary } inFlight' outcomes := by
  refine h.mono rfl rfl rfl rfl rfl rfl ?_ hsteps
  rintro ⟨counted, hcounted⟩
  rcases hsummary with rfl | rfl
  · cases hcounted
  · exact ⟨counted, hcounted⟩

theorem isStep_of_fetches
    (h : ∀ task ∈ tasks, ∃ client, task = AppTask.fetchTransferBuckets client) :
    ∀ task ∈ tasks, task.isStep = false := by
  intro task htask
  obtain ⟨client, rfl⟩ := h task htask
  rfl

/-- The next item is in conflict, and nothing else is being worked on. -/
theorem Steady.asked {inFlight' : List ModalTask} (h : Steady transfer inFlight outcomes)
    (hitem : transfer.items[transfer.nextIndex]? = some item) (hsteps : stepsOf inFlight' = []) :
    Steady
      { transfer with pendingConflict := some item, currentItem := none, running := false }
      inFlight' outcomes := by
  refine ⟨h.tallied.of_same rfl rfl rfl rfl rfl, ?_, ?_, ?_, ?_⟩
  · rw [hsteps]
    simp
  · intro request hrequest
    rw [hsteps] at hrequest
    cases hrequest
  · intro pending hpending
    obtain rfl := Option.some.inj hpending
    exact hitem
  · rintro ⟨counted, hcounted⟩
    exact absurd ⟨counted, hcounted⟩ (h.not_showsDone hitem)

theorem outcomesAfter_of_edits (h : message.editsTransfer = true)
    (outcomes : List (TransferItem × ItemOutcome)) (about : Option TransferItem) :
    outcomesAfter outcomes about message = outcomes := by
  cases message <;> first | rfl | cases h

theorem outcomesAfter_of_overwrites (h : message.overwrites = true)
    (outcomes : List (TransferItem × ItemOutcome)) (about : Option TransferItem) :
    outcomesAfter outcomes about message = outcomes := by
  cases message <;> first | rfl | cases h

theorem outcomesAfter_of_skips (h : message.skips = true)
    (outcomes : List (TransferItem × ItemOutcome)) (about : Option TransferItem) :
    outcomesAfter outcomes about message =
      outcomes ++ (about.map fun item => (item, ItemOutcome.skipped)).toList := by
  have hmessage : message = .transferConflictSkip ∨ message = .transferConflictSkipAll := by
    cases message with
    | transferConflictSkip => exact .inl rfl
    | transferConflictSkipAll => exact .inr rfl
    | _ => cases h
  rcases hmessage with rfl | rfl <;> cases about <;> simp [outcomesAfter]

theorem outcomesAfter_conflict (outcomes : List (TransferItem × ItemOutcome))
    (about : Option TransferItem) (item : TransferItem) :
    outcomesAfter outcomes about (.transferStepFinished (.ok (.conflict item))) = outcomes := by
  cases about <;> rfl

/-- What tasks answer is no message of the user. -/
theorem Answers.not_user {task : AppTask} (h : Answers task message) :
    message.inTransfer = false ∧ message.skips = false ∧ message.overwrites = false := by
  cases h <;> exact ⟨rfl, rfl, rfl⟩

theorem Answers.isStep {task : AppTask} {result : Except String TransferStepResult}
    (h : Answers task (.transferStepFinished result)) : task.isStep = true := by
  cases h <;> rfl

/-- A step asks about the item it was started for. -/
theorem Answers.conflict_item {task : AppTask} {other : TransferItem}
    (h : Answers task (.transferStepFinished (.ok (.conflict other))))
    (htask : ∀ sourceClient destinationClient other overwritePolicy isMove,
      task = .runTransfer sourceClient destinationClient other overwritePolicy isMove →
      other = item) : other = item := by
  cases h with
  | step sourceClient destinationClient own overwritePolicy isMove _ hasks =>
      rw [(hasks other rfl).1]
      exact htask _ _ _ _ _ rfl

/-- A message of the user keeps the counters right. -/
theorem Steady.user {before app' : App} (h : Steady transfer inFlight outcomes)
    (htransfer : before.transfer = some transfer) (hmessage : message.inTransfer = true)
    (hmove : ModalMove platform surroundings app transfer message after tasks)
    (hafter : app'.transfer = some after) :
    Steady after (inFlight ++ modalTasks before app' message tasks)
      (outcomesAfter outcomes transfer.pendingConflict message) := by
  have hquiet : ∀ {tasks : List AppTask}, (∀ task ∈ tasks, task.isStep = false) →
      (stepsOf (inFlight ++ modalTasks before app' message tasks)).Sublist (stepsOf inFlight) := by
    intro tasks htasks
    rw [stepsOf_append, stepsOf_modalTasks_eq_nil htasks, List.append_nil]
  cases hmove with
  | edited _ hedits connectionId bucket key buckets loading summary hsummary _ htasks =>
      rw [outcomesAfter_of_edits hedits]
      exact h.edited connectionId bucket key buckets loading hsummary
        (hquiet (isStep_of_fetches htasks))
  | ignored _ hignored =>
      have hsame : outcomesAfter outcomes transfer.pendingConflict message = outcomes := by
        rcases hignored with rfl | ⟨hskips | hoverwrites, hpending⟩
        · rfl
        · rw [outcomesAfter_of_skips hskips, hpending]
          simp
        · exact outcomesAfter_of_overwrites hoverwrites _ _
      rw [hsame]
      exact h.mono rfl rfl rfl rfl rfl rfl id (hquiet (by simp))
  | started hcan =>
      refine h.mono rfl rfl rfl rfl rfl rfl ?_ (hquiet ?_)
      · rintro ⟨counted, hcounted⟩
        cases hcounted
      · intro task htask
        rw [List.mem_singleton] at htask
        subst htask
        unfold TransferState.prepareTask
        split <;> rfl
  | skipped _ hskips item hpending overwritePolicy _ _ hproceeds =>
      have hitem := h.pendingItem item hpending
      rw [outcomesAfter_of_skips hskips, hpending]
      refine hproceeds.steady ((h.tallied.counting hitem .skipped).of_same rfl rfl rfl rfl rfl)
        (h.steps_of_pending hpending) ?_ hafter (overwrites_of_skips hskips)
      rintro ⟨counted, hcounted⟩
      exact h.not_showsDone hitem ⟨counted, hcounted⟩
  | overwritten _ hoverwrites item hpending overwritePolicy =>
      have hitem := h.pendingItem item hpending
      rw [outcomesAfter_of_overwrites hoverwrites]
      refine Steady.of_started (h.tallied.of_same rfl rfl rfl rfl rfl)
        (h.steps_of_pending hpending) rfl hitem ?_ (transferStepTask_isStep _ _)
        (fun _ _ _ _ _ htask => transferStepTask_item htask) ?_
      · simp [hoverwrites, htransfer, hpending]
      · rintro ⟨counted, hcounted⟩
        exact h.not_showsDone hitem ⟨counted, hcounted⟩
  | unprepared _ | empty | prepared _ _ _ _ _ | conflict _ | finished _ _ _ _ _ _ _ =>
      cases hmessage

/-- The answer to a task keeps the counters right, unless it brings a list in between. -/
theorem Steady.finish {before app' : App} {index : Nat} {request : ModalTask}
    (h : Steady transfer inFlight outcomes) (hrequest : inFlight[index]? = some request)
    (hanswers : Answers request.task message)
    (hmove : ModalMove platform surroundings app transfer message after tasks)
    (hafter : app'.transfer = some after)
    (hapart : ∀ items, message = .transferPrepared (.ok items) →
      stepsOf inFlight = [] ∧ ¬ transfer.ShowsDone) :
    Steady after (inFlight.eraseIdx index ++ modalTasks before app' message tasks)
      (outcomesAfter outcomes request.item message) := by
  have herase : (stepsOf (inFlight.eraseIdx index)).Sublist (stepsOf inFlight) :=
    (List.eraseIdx_sublist _ _).filter _
  have hquiet : ∀ {tasks : List AppTask}, (∀ task ∈ tasks, task.isStep = false) →
      (stepsOf (inFlight.eraseIdx index ++ modalTasks before app' message tasks)).Sublist
        (stepsOf inFlight) := by
    intro tasks htasks
    rw [stepsOf_append, stepsOf_modalTasks_eq_nil htasks, List.append_nil]
    exact herase
  have hempty : ∀ items, Tallied (transfer.listing items) [] := fun items =>
    ⟨rfl, Nat.zero_le _, rfl, rfl, rfl⟩
  cases hmove with
  | edited _ hedits connectionId bucket key buckets loading summary hsummary _ htasks =>
      rw [outcomesAfter_of_edits hedits]
      exact h.edited connectionId bucket key buckets loading hsummary
        (hquiet (isStep_of_fetches htasks))
  | unprepared error =>
      refine h.mono rfl rfl rfl rfl rfl rfl (fun hshows => absurd hshows ?_) (hquiet (by simp))
      apply not_showsDone_of_summary rfl
      rintro text hsummary
      obtain rfl := Option.some.inj hsummary
      simp
  | empty =>
      obtain ⟨hsteps, -⟩ := hapart [] rfl
      refine Steady.of_quiet ((hempty []).of_same rfl rfl rfl rfl rfl) ?_ rfl fun _ => rfl
      have hsub := @hquiet [] (by simp)
      rw [hsteps] at hsub
      exact List.sublist_nil.mp hsub
  | prepared items hitems _ _ hproceeds =>
      obtain ⟨hsteps, hdone⟩ := hapart items rfl
      refine hproceeds.steady (hempty items) ?_ hdone hafter rfl
      rw [hsteps] at herase
      exact List.sublist_nil.mp herase
  | conflict other =>
      have hstep := hanswers.isStep
      obtain ⟨item, hitem, hget, htask⟩ := h.stepItem request
        (List.mem_filter.mpr ⟨List.mem_of_getElem? hrequest, hstep⟩)
      obtain ⟨hsteps, -⟩ := h.only_step hrequest hstep
      obtain rfl := hanswers.conflict_item htask
      rw [outcomesAfter_conflict]
      apply h.asked hget
      rw [stepsOf_append, hsteps]
      rfl
  | finished result outcome houtcome currentItem _ _ hproceeds =>
      have hstep := hanswers.isStep
      obtain ⟨item, hitem, hget, -⟩ := h.stepItem request
        (List.mem_filter.mpr ⟨List.mem_of_getElem? hrequest, hstep⟩)
      obtain ⟨hsteps, -⟩ := h.only_step hrequest hstep
      have houtcomes : outcomesAfter outcomes request.item (.transferStepFinished result) =
          outcomes ++ [(item, outcome)] := by
        simp [outcomesAfter, hitem, houtcome]
      rw [houtcomes]
      refine hproceeds.steady ((h.tallied.counting hget outcome).of_same rfl rfl rfl rfl rfl)
        hsteps ?_ hafter rfl
      rintro ⟨counted, hcounted⟩
      exact h.not_showsDone hget ⟨counted, hcounted⟩
  | ignored _ hignored =>
      obtain ⟨huser, hnoSkip, hnoOverwrite⟩ := hanswers.not_user
      rcases hignored with rfl | ⟨hskips | hoverwrites, hpending⟩
      · cases huser
      · rw [hnoSkip] at hskips
        cases hskips
      · rw [hnoOverwrite] at hoverwrites
        cases hoverwrites
  | started hcan => cases hanswers.not_user.1
  | skipped _ hskips _ _ _ _ _ _ =>
      rw [hanswers.not_user.2.1] at hskips
      cases hskips
  | overwritten _ hoverwrites _ _ _ =>
      rw [hanswers.not_user.2.2] at hoverwrites
      cases hoverwrites

theorem countP_outcomes (outcomes : List (TransferItem × ItemOutcome)) :
    outcomes.countP (·.2 = .copied) + outcomes.countP (·.2 = .skipped) +
      outcomes.countP (·.2 = .failed) = outcomes.length := by
  induction outcomes with
  | nil => rfl
  | cons outcome outcomes ih =>
      simp only [List.countP_cons, List.length_cons]
      cases outcome.2 <;> simp only [decide_true, decide_false, if_true, reduceCtorEq,
        Bool.false_eq_true, if_false] <;> omega

end Counting

/-! ## Runs -/

section Runs

variable {σ : Type}

section Definitions

variable [DecidableEq σ] (platform : Platform) (network : Network σ)

/-- A new list comes to a modal without a step in flight and without the summary of a
list that is done. -/
def TransferModal.ListsApart (modal : TransferModal σ) (event : ModalEvent σ) : Prop :=
  ∀ items, modal.brings platform network event = some (.transferPrepared (.ok items)) →
    stepsOf modal.inFlight = [] ∧
      ∀ transfer, modal.app.transfer = some transfer → ¬ transfer.ShowsDone

end Definitions

/-- The modal counts its items right. -/
structure TransferModal.Counts (modal : TransferModal σ) : Prop where
  own : modal.Own
  steady : ∀ transfer, modal.app.transfer = some transfer →
    Steady transfer modal.inFlight modal.outcomes

/-- At most one step is in flight, the counters are those of the items passed, and a list
that is shown as done has one outcome for each of its items. -/
structure TransferModal.OneOutcomeEach (modal : TransferModal σ) (transfer : TransferState) :
    Prop where
  oneStep : (stepsOf modal.inFlight).length ≤ 1
  next_le : transfer.nextIndex ≤ transfer.items.length
  counted : transfer.completed + transfer.skipped + transfer.failed = transfer.nextIndex
  done : transfer.ShowsDone →
    modal.outcomes.map (·.1) = transfer.items ∧
      transfer.completed = modal.outcomes.countP (·.2 = .copied) ∧
      transfer.skipped = modal.outcomes.countP (·.2 = .skipped) ∧
      transfer.failed = modal.outcomes.countP (·.2 = .failed) ∧
      transfer.completed + transfer.skipped + transfer.failed = transfer.items.length

variable {modal : TransferModal σ}

theorem TransferModal.Opened.counts (h : modal.Opened) : modal.Counts := by
  obtain ⟨fresh, hfresh, hf⟩ := h.fresh
  refine ⟨h.own, fun transfer htransfer => ?_⟩
  obtain rfl : fresh = transfer := Option.some.inj (hfresh.symm.trans htransfer)
  have hsteps : stepsOf modal.inFlight = [] := by
    unfold stepsOf
    rw [List.filter_eq_nil_iff]
    intro request hrequest
    obtain ⟨client, hclient⟩ := h.inFlight request hrequest
    rw [hclient]
    exact Bool.false_ne_true
  have htallied : Tallied fresh modal.outcomes := by
    rw [h.outcomes]
    refine ⟨?_, ?_, hf.completed, hf.skipped, hf.failed⟩
    · rw [hf.items, hf.nextIndex]
      rfl
    · rw [hf.nextIndex]
      exact Nat.zero_le _
  refine Steady.of_quiet htallied hsteps hf.pendingConflict fun _ => ?_
  rw [hf.nextIndex, hf.items]
  rfl

theorem TransferModal.Counts.oneOutcomeEach (h : modal.Counts) {transfer : TransferState}
    (htransfer : modal.app.transfer = some transfer) : modal.OneOutcomeEach transfer := by
  have hsteady := h.steady transfer htransfer
  obtain ⟨hlisted, hnext, hcopied, hskipped, hfailed⟩ := hsteady.tallied
  have hlength : modal.outcomes.length = transfer.nextIndex := by
    have hlen := congrArg List.length hlisted
    rw [List.length_map, List.length_take] at hlen
    omega
  have hcounts := countP_outcomes modal.outcomes
  refine ⟨?_, hnext, by omega, fun hshows => ?_⟩
  · have hwork := hsteady.atWork
    omega
  · have hend := hsteady.done hshows
    refine ⟨?_, hcopied, hskipped, hfailed, by omega⟩
    rw [hlisted, hend, List.take_length]

variable [DecidableEq σ] {platform : Platform} {network : Network σ}

theorem TransferModal.Counts.step (h : modal.Counts) {event : ModalEvent σ}
    (hapart : modal.ListsApart platform network event) :
    (modal.step platform network event).Counts := by
  refine ⟨h.own.step event, fun after hafter => ?_⟩
  cases @modal_step σ _ platform network modal h.own event with
  | still htransfer hinFlight houtcomes =>
      rw [htransfer] at hafter
      rw [houtcomes]
      exact (h.steady after hafter).mono rfl rfl rfl rfl rfl rfl id (hinFlight.filter _)
  | user surroundings message hmessage _ transfer next tasks htransfer hmove hnext hinFlight
      houtcomes =>
      obtain rfl : next = after := Option.some.inj (hnext.symm.trans hafter)
      have hpending : modal.pending = transfer.pendingConflict := by
        rw [TransferModal.pending, htransfer, Option.bind_some]
      rw [hinFlight, houtcomes, hpending]
      exact (h.steady transfer htransfer).user htransfer hmessage hmove hnext
  | finish surroundings index request message hrequest hanswers hbrings transfer next tasks
      htransfer hmove hnext hinFlight houtcomes =>
      obtain rfl : next = after := Option.some.inj (hnext.symm.trans hafter)
      rw [hinFlight, houtcomes]
      refine (h.steady transfer htransfer).finish hrequest hanswers hmove hnext ?_
      rintro items rfl
      obtain ⟨hsteps, hdone⟩ := hapart items hbrings
      exact ⟨hsteps, hdone transfer htransfer⟩

/-- In every run of an opened modal in which new lists come apart from steps and
summaries, every item has one outcome. -/
theorem transfer_counts_items (hopened : modal.Opened) (events : List (ModalEvent σ))
    (hapart : Along (TransferModal.step platform network)
      (TransferModal.ListsApart platform network) modal events) :
    ∃ transfer, (run (TransferModal.step platform network) modal events).app.transfer =
        some transfer ∧
      (run (TransferModal.step platform network) modal events).OneOutcomeEach transfer := by
  have hcounts := run_invariant TransferModal.Counts (fun _ _ h hok => h.step hok)
    hopened.counts hapart
  obtain ⟨transfer, htransfer⟩ := hcounts.own.isOpen
  exact ⟨transfer, htransfer, hcounts.oneOutcomeEach htransfer⟩

end Runs

/-- The message brings a new list. -/
def Message.isList : Message → Bool
  | .transferPrepared (.ok _) => true
  | _ => false

theorem listsApart_of_clear {σ : Type} [DecidableEq σ] {platform : Platform}
    {network : Network σ} {modal : TransferModal σ} {event : ModalEvent σ}
    (h : (modal.brings platform network event).any Message.isList = false ∨
      (stepsOf modal.inFlight).isEmpty = true ∧
        (modal.app.transfer.bind (·.summary)).isNone = true) :
    modal.ListsApart platform network event := by
  intro items hbrings
  rcases h with hother | ⟨hsteps, hsummary⟩
  · rw [hbrings] at hother
    cases hother
  · refine ⟨List.isEmpty_iff.mp hsteps, ?_⟩
    rintro transfer htransfer ⟨counted, hcounted⟩
    rw [htransfer, Option.bind_some, hcounted] at hsummary
    cases hsummary

/-- A copy that asks, and is answered by overwriting. -/
theorem transfer_counts_items_conflict :
    ∃ transfer, (run (TransferModal.step .unix plainNetwork) (modalFor .openCopyObject)
        (untilConflict ++ [.user calm .transferConflictOverwrite,
          .finish calm 0 emptyReplies servedVerdicts])).app.transfer = some transfer ∧
      (run (TransferModal.step .unix plainNetwork) (modalFor .openCopyObject)
        (untilConflict ++ [.user calm .transferConflictOverwrite,
          .finish calm 0 emptyReplies servedVerdicts])).OneOutcomeEach transfer := by
  apply transfer_counts_items (modalFor_opened (.inl rfl))
  exact ⟨listsApart_of_clear (by decide), listsApart_of_clear (by decide),
    listsApart_of_clear (by decide), listsApart_of_clear (by decide),
    listsApart_of_clear (by decide), listsApart_of_clear (by decide), trivial⟩

/-- The user starts again while the modal asks, and then answers: two steps are in
flight. -/
theorem preparation_beside_conflict :
    ¬ ∀ (modal : TransferModal Str), modal.Opened → ∀ events, ∃ transfer,
      (run (TransferModal.step .unix plainNetwork) modal events).app.transfer = some transfer ∧
        (run (TransferModal.step .unix plainNetwork) modal events).OneOutcomeEach transfer := by
  intro h
  obtain ⟨transfer, -, hone⟩ := h (modalFor .openCopyObject) (modalFor_opened (.inl rfl))
    (untilConflict ++ [.user calm .startTransfer, .user calm .transferConflictOverwrite,
      .finish calm 0 emptyReplies servedVerdicts])
  have htwo : (stepsOf (run (TransferModal.step .unix plainNetwork) (modalFor .openCopyObject)
      (untilConflict ++ [.user calm .startTransfer, .user calm .transferConflictOverwrite,
        .finish calm 0 emptyReplies servedVerdicts])).inFlight).length = 2 := by
    decide
  have hone := hone.oneStep
  omega

end AbixioUi
