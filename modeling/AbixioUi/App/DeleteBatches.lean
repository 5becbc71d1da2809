import AbixioUi.App.Deletes
import AbixioUi.Foundation.Lists
import AbixioUi.Foundation.Runs

/-! # Deleting keys in batches

Marked objects and the objects under a prefix are deleted by one loop, written twice.
The cursor moves when a batch is sent and the count when it returns, and after an error
the loop goes on from the cursor.
-/

namespace AbixioUi

open Foundation

/-! ## The two deletes as one -/

inductive KeyDelete
  | marked
  | underPrefix
deriving DecidableEq, Repr

/-- What both modals keep of a delete. -/
structure BatchModal where
  keys : List Str
  total : Nat
  deleted : Nat
  nextIndex : Nat
  deleting : Bool
deriving DecidableEq, Repr

namespace KeyDelete

def modal (kind : KeyDelete) (app : App) : Option BatchModal :=
  match kind with
  | .marked => app.bulkDelete.map fun state =>
      ⟨state.keys, state.total, state.deleted, state.nextIndex, state.deleting⟩
  | .underPrefix => app.prefixDelete.map fun state =>
      ⟨state.keys, state.total, state.deleted, state.nextIndex, state.deleting⟩

def confirm (kind : KeyDelete) (app : App) : App × List AppTask :=
  match kind with
  | .marked => handleConfirmBulkDelete app
  | .underPrefix => handleConfirmPrefixDelete app

def batchFinished (kind : KeyDelete) (app : App) (result : Except String Nat) :
    App × List AppTask :=
  match kind with
  | .marked => handleBulkDeleteBatchFinished app result
  | .underPrefix => handlePrefixDeleteBatchFinished app result

/-- The keys of a delete request. -/
def batchOf (kind : KeyDelete) (task : AppTask) : Option (List Str) :=
  match kind, task with
  | .marked, .deleteBulk _ _ keys => some keys
  | .underPrefix, .deletePrefix _ _ keys => some keys
  | _, _ => none

/-- The message that a finished delete leaves. -/
def doneSummary (kind : KeyDelete) (deleted total : Nat) : String :=
  match kind with
  | .marked => "Deleted " ++ toString deleted ++ " of " ++ toString total ++ " objects"
  | .underPrefix =>
      "Deleted " ++ toString deleted ++ " of " ++ toString total ++ " objects under prefix"

section

variable {kind : KeyDelete} {app : App} {m : BatchModal}

theorem confirm_closed (h : kind.modal app = none) : kind.confirm app = (app, []) := by
  cases kind with
  | marked =>
      have hnone : app.bulkDelete = none := Option.map_eq_none_iff.mp h
      simp [confirm, handleConfirmBulkDelete, processNextBulkDeleteStep, hnone]
  | underPrefix =>
      have hnone : app.prefixDelete = none := Option.map_eq_none_iff.mp h
      simp [confirm, handleConfirmPrefixDelete, processNextPrefixDeleteBatch, hnone]

/-- While keys are left, the next ones are sent and the cursor moves behind them. -/
theorem confirm_sends (h : kind.modal app = some m) (hlt : m.nextIndex < m.keys.length) :
    kind.modal (kind.confirm app).1 = some
        { m with
          deleting := true
          nextIndex := m.nextIndex + (nextKeyBatch m.keys m.nextIndex).length } ∧
      (kind.confirm app).2.filterMap kind.batchOf = [nextKeyBatch m.keys m.nextIndex] := by
  cases kind with
  | marked =>
      obtain ⟨state, hstate, rfl⟩ := Option.map_eq_some_iff.mp h
      simp only at hlt
      simp [confirm, handleConfirmBulkDelete, processNextBulkDeleteStep, hstate, hlt, modal,
        batchOf]
  | underPrefix =>
      obtain ⟨state, hstate, rfl⟩ := Option.map_eq_some_iff.mp h
      simp only at hlt
      simp [confirm, handleConfirmPrefixDelete, processNextPrefixDeleteBatch, hstate, hlt, modal,
        batchOf]

/-- With the cursor at the end the modal closes. -/
theorem confirm_ends (h : kind.modal app = some m) (hend : m.keys.length ≤ m.nextIndex) :
    kind.modal (kind.confirm app).1 = none ∧
      (kind.confirm app).2.filterMap kind.batchOf = [] ∧
      (kind.confirm app).1.error = some (kind.doneSummary m.deleted m.total) := by
  have hnone : ∀ app : App, app.fetchObjects.filterMap kind.batchOf = [] := by
    intro app
    unfold App.fetchObjects
    split
    next => rfl
    next => cases kind <;> rfl
  cases kind with
  | marked =>
      obtain ⟨state, hstate, rfl⟩ := Option.map_eq_some_iff.mp h
      have hge : ¬ state.nextIndex < state.keys.length := Nat.not_lt_of_le hend
      simp [confirm, handleConfirmBulkDelete, processNextBulkDeleteStep, hstate, hge, modal,
        App.deletesDone, hnone, doneSummary]
  | underPrefix =>
      obtain ⟨state, hstate, rfl⟩ := Option.map_eq_some_iff.mp h
      have hge : ¬ state.nextIndex < state.keys.length := Nat.not_lt_of_le hend
      simp [confirm, handleConfirmPrefixDelete, processNextPrefixDeleteBatch, hstate, hge, modal,
        App.deletesDone, hnone, doneSummary]

/-- A batch that returned is counted, and the loop goes on. -/
theorem batchFinished_ok (h : kind.modal app = some m) (count : Nat) :
    ∃ counted, kind.modal counted = some { m with deleted := m.deleted + count } ∧
      kind.batchFinished app (.ok count) = kind.confirm counted := by
  cases kind with
  | marked =>
      obtain ⟨state, hstate, rfl⟩ := Option.map_eq_some_iff.mp h
      simp only [batchFinished, handleBulkDeleteBatchFinished, hstate, confirm,
        handleConfirmBulkDelete]
      refine ⟨_, ?_, rfl⟩
      rfl
  | underPrefix =>
      obtain ⟨state, hstate, rfl⟩ := Option.map_eq_some_iff.mp h
      simp only [batchFinished, handlePrefixDeleteBatchFinished, hstate, confirm,
        handleConfirmPrefixDelete]
      refine ⟨_, ?_, rfl⟩
      rfl

/-- After an error the modal waits, with its cursor behind the batch that failed. -/
theorem batchFinished_error (h : kind.modal app = some m) (error : String) :
    kind.modal (kind.batchFinished app (.error error)).1 = some { m with deleting := false } ∧
      (kind.batchFinished app (.error error)).2 = [] := by
  cases kind with
  | marked =>
      obtain ⟨state, hstate, rfl⟩ := Option.map_eq_some_iff.mp h
      simp [batchFinished, handleBulkDeleteBatchFinished, hstate, modal]
  | underPrefix =>
      obtain ⟨state, hstate, rfl⟩ := Option.map_eq_some_iff.mp h
      simp [batchFinished, handlePrefixDeleteBatchFinished, hstate, modal]

end

end KeyDelete

/-! ## Runs -/

/-- A delete request with its answer: the keys that failed, or an error. -/
abbrev Answered := List Str × Except String (List Str)

/-- A delete with the batches in flight and the requests answered so far. -/
structure BatchRun where
  app : App
  inFlight : List (List Str)
  answered : List Answered

def BatchRun.start (app : App) : BatchRun := ⟨app, [], []⟩

inductive BatchEvent
  | press
  | answer (reply : Except String (List Str))

/-- The button is disabled while a batch is being deleted; a task returns the number of
its keys that did not fail. -/
def BatchRun.step (kind : KeyDelete) (run : BatchRun) : BatchEvent → BatchRun
  | .press =>
      if (kind.modal run.app).all (!·.deleting) then
        let (app, tasks) := kind.confirm run.app
        { run with app := app, inFlight := run.inFlight ++ tasks.filterMap kind.batchOf }
      else run
  | .answer reply =>
      match run.inFlight with
      | [] => run
      | batch :: rest =>
          let (app, tasks) := kind.batchFinished run.app
            (reply.map fun failed => batch.length - failed.length)
          { app := app
            inFlight := rest ++ tasks.filterMap kind.batchOf
            answered := run.answered ++ [(batch, reply)] }

/-- What is answered was asked, and only keys that were asked for can fail. -/
def BatchRun.Possible (run : BatchRun) : BatchEvent → Prop
  | .press => True
  | .answer reply =>
      ∃ batch rest, run.inFlight = batch :: rest ∧
        ∀ failed, reply = .ok failed → failed.Subperm batch

def BatchEvent.fails : BatchEvent → Bool
  | .press => false
  | .answer reply => !reply.isOk

/-- The requests that returned. -/
def served (answered : List Answered) : List (List Str) :=
  (answered.filter fun request => request.2.isOk).map Prod.fst

/-- The keys that the server has deleted, as its answers tell. -/
def deletedKeys (answered : List Answered) : List Str :=
  answered.flatMap fun request =>
    match request.2 with
    | .ok failed => request.1.diff failed
    | .error _ => []

/-- A modal whose delete has not started. -/
structure BatchModal.Fresh (m : BatchModal) : Prop where
  total_eq : m.total = m.keys.length
  deleted_eq : m.deleted = 0
  nextIndex_eq : m.nextIndex = 0
  deleting_eq : m.deleting = false

/-- Every listed key was in one request that returned, as often as it is listed, and the
message counts the keys that are gone. -/
structure BatchRun.Whole (kind : KeyDelete) (keys : List Str) (run : BatchRun) : Prop where
  attempted : (served run.answered).flatten.Perm keys
  once : keys.Nodup → ∀ key ∈ keys, (served run.answered).countP (·.contains key) = 1
  reported : run.app.error =
    some (kind.doneSummary (deletedKeys run.answered).length keys.length)

/-! ## What a run keeps -/

section

variable {kind : KeyDelete} {keys : List Str}

/-- A modal between two batches: the cursor is behind the answered ones. -/
structure BatchModal.Rests (m : BatchModal) (keys : List Str) (answered : List Answered) :
    Prop where
  keys_eq : m.keys = keys
  total_eq : m.total = keys.length
  deleted_eq : m.deleted = (deletedKeys answered).length
  nextIndex_le : m.nextIndex ≤ keys.length
  sent : (answered.map Prod.fst).flatten = keys.take m.nextIndex
  nonempty : ∀ request ∈ answered, request.1 ≠ []

/-- While the modal is open: with no batch in flight it rests, and a batch in flight is
the only one and has moved the cursor. -/
structure BatchRun.Open (kind : KeyDelete) (keys : List Str) (m : BatchModal) (run : BatchRun) :
    Prop where
  modal_eq : kind.modal run.app = some m
  idle : m.deleting = false → run.inFlight = [] ∧ m.Rests keys run.answered
  busy : m.deleting = true → ∃ start batch, run.inFlight = [batch] ∧ batch ≠ [] ∧
    m.nextIndex = start + batch.length ∧ m.nextIndex ≤ keys.length ∧
    batch = (keys.drop start).take batch.length ∧
    ({ m with nextIndex := start } : BatchModal).Rests keys run.answered

structure BatchRun.Closed (kind : KeyDelete) (keys : List Str) (run : BatchRun) : Prop where
  modal_eq : kind.modal run.app = none
  inFlight_eq : run.inFlight = []
  sent : (run.answered.map Prod.fst).flatten = keys
  nonempty : ∀ request ∈ run.answered, request.1 ≠ []
  error_eq : run.app.error =
    some (kind.doneSummary (deletedKeys run.answered).length keys.length)

def BatchRun.Holds (kind : KeyDelete) (keys : List Str) (run : BatchRun) : Prop :=
  (∃ m, run.Open kind keys m) ∨ run.Closed kind keys

/-- From rest the loop sends the next batch or closes the modal. -/
theorem BatchRun.holds_confirm {app : App} {m : BatchModal} {answered : List Answered}
    (h : kind.modal app = some m) (hrests : m.Rests keys answered) :
    BatchRun.Holds kind keys
      ⟨(kind.confirm app).1, (kind.confirm app).2.filterMap kind.batchOf, answered⟩ := by
  by_cases hlt : m.nextIndex < m.keys.length
  · obtain ⟨hmodal, hbatch⟩ := KeyDelete.confirm_sends h hlt
    have hlength : (nextKeyBatch m.keys m.nextIndex).length =
        min DELETE_BATCH_LIMIT (m.keys.length - m.nextIndex) := by
      simp [nextKeyBatch]
    have hlimit : 0 < DELETE_BATCH_LIMIT := by decide
    refine .inl ⟨_, hmodal, ?_, ?_⟩
    · intro hidle
      cases hidle
    · intro _
      have hkeys := hrests.keys_eq
      refine ⟨m.nextIndex, nextKeyBatch m.keys m.nextIndex, hbatch, ?_, rfl, ?_, ?_, ?_⟩
      · apply List.ne_nil_of_length_pos
        omega
      · rw [← hkeys]
        show m.nextIndex + (nextKeyBatch m.keys m.nextIndex).length ≤ m.keys.length
        omega
      · rw [← hkeys]
        unfold nextKeyBatch
        simp
      · exact ⟨hrests.keys_eq, hrests.total_eq, hrests.deleted_eq, hrests.nextIndex_le,
          hrests.sent, hrests.nonempty⟩
  · have hend : m.keys.length ≤ m.nextIndex := Nat.le_of_not_lt hlt
    obtain ⟨hmodal, hbatch, herror⟩ := KeyDelete.confirm_ends h hend
    have hsent := hrests.sent
    rw [hrests.keys_eq] at hend
    rw [List.take_of_length_le hend] at hsent
    rw [hrests.deleted_eq, hrests.total_eq] at herror
    exact .inr ⟨hmodal, hbatch, hsent, hrests.nonempty, herror⟩

/-- An answered batch is behind the cursor. -/
theorem BatchModal.Rests.answer {m : BatchModal} {start : Nat} {batch : List Str}
    {answered : List Answered}
    (h : ({ m with nextIndex := start } : BatchModal).Rests keys answered)
    (hnext : m.nextIndex = start + batch.length) (hle : m.nextIndex ≤ keys.length)
    (hbatch : batch = (keys.drop start).take batch.length) (hne : batch ≠ [])
    (reply : Except String (List Str)) {m' : BatchModal} (hkeys : m'.keys = m.keys)
    (htotal : m'.total = m.total) (hcursor : m'.nextIndex = m.nextIndex)
    (hdeleted : m'.deleted = (deletedKeys (answered ++ [(batch, reply)])).length) :
    m'.Rests keys (answered ++ [(batch, reply)]) := by
  refine ⟨hkeys.trans h.keys_eq, htotal.trans h.total_eq, hdeleted, hcursor ▸ hle, ?_, ?_⟩
  · have hsent := h.sent
    simp only at hsent
    rw [hcursor, hnext, List.take_add, List.map_append, List.flatten_append, hsent, ← hbatch]
    simp
  · intro request hrequest
    rcases List.mem_append.mp hrequest with hold | hnew
    · exact h.nonempty request hold
    · rw [List.mem_singleton.mp hnew]
      exact hne

theorem deletedKeys_append (answered : List Answered) (request : Answered) :
    deletedKeys (answered ++ [request]) = deletedKeys answered ++ deletedKeys [request] := by
  simp [deletedKeys]

/-- A press goes on from rest, and does nothing while a batch is in flight. -/
theorem BatchRun.Open.press {run : BatchRun} {m : BatchModal} (hopen : run.Open kind keys m) :
    (run.step kind .press).Holds kind keys := by
  by_cases hdeleting : m.deleting = true
  · have hstep : run.step kind .press = run := by
      simp [BatchRun.step, hopen.modal_eq, hdeleting]
    rw [hstep]
    exact .inl ⟨m, hopen⟩
  · rw [Bool.not_eq_true] at hdeleting
    obtain ⟨hflight, hrests⟩ := hopen.idle hdeleting
    have hstep : run.step kind .press = ⟨(kind.confirm run.app).1,
        (kind.confirm run.app).2.filterMap kind.batchOf, run.answered⟩ := by
      simp [BatchRun.step, hopen.modal_eq, hdeleting, hflight]
    rw [hstep]
    exact BatchRun.holds_confirm hopen.modal_eq hrests

/-- The answer to the batch in flight puts the modal to rest, and after an Ok it goes on
from there. -/
theorem BatchRun.Open.answer {run : BatchRun} {m : BatchModal} (hopen : run.Open kind keys m)
    {reply : Except String (List Str)} (hpossible : run.Possible (.answer reply)) :
    (run.step kind (.answer reply)).Holds kind keys := by
  obtain ⟨first, rest, hfirst, hfailed⟩ := hpossible
  have hdeleting : m.deleting = true := by
    by_contra hidle
    rw [Bool.not_eq_true] at hidle
    rw [(hopen.idle hidle).1] at hfirst
    cases hfirst
  obtain ⟨start, batch, hflight, hne, hnext, hle, hbatch, hrests⟩ := hopen.busy hdeleting
  obtain ⟨rfl, rfl⟩ : batch = first ∧ [] = rest := by
    rw [hflight, List.cons.injEq] at hfirst
    exact hfirst
  have hdeletedEq := hrests.deleted_eq
  simp only at hdeletedEq
  cases reply with
  | ok failed =>
      obtain ⟨counted, hcounted, hfinished⟩ :=
        KeyDelete.batchFinished_ok hopen.modal_eq (batch.length - failed.length)
      have hstep : run.step kind (.answer (.ok failed)) = ⟨(kind.confirm counted).1,
          (kind.confirm counted).2.filterMap kind.batchOf,
          run.answered ++ [(batch, .ok failed)]⟩ := by
        simp [BatchRun.step, hflight, Except.map, hfinished]
      rw [hstep]
      apply BatchRun.holds_confirm hcounted
      refine hrests.answer hnext hle hbatch hne _ rfl rfl rfl ?_
      rw [deletedKeys_append, List.length_append, ← hdeletedEq,
        ← length_diff_of_subperm (hfailed failed rfl)]
      simp [deletedKeys]
  | error error =>
      obtain ⟨hmodal, htasks⟩ := KeyDelete.batchFinished_error hopen.modal_eq error
      refine .inl ⟨{ m with deleting := false }, ?_, ?_, ?_⟩
      · simp only [BatchRun.step, hflight]
        exact hmodal
      · intro _
        simp only [BatchRun.step, hflight, Except.map, htasks]
        refine ⟨rfl, hrests.answer hnext hle hbatch hne _ rfl rfl rfl ?_⟩
        rw [deletedKeys_append, List.length_append, ← hdeletedEq]
        simp [deletedKeys]
      · intro hbusy
        cases hbusy

theorem BatchRun.Holds.step {run : BatchRun} (h : run.Holds kind keys) {event : BatchEvent}
    (hpossible : run.Possible event) : (run.step kind event).Holds kind keys := by
  rcases h with ⟨m, hopen⟩ | hclosed
  · cases event with
    | press => exact hopen.press
    | answer reply => exact hopen.answer hpossible
  · cases event with
    | press =>
        have hstep : run.step kind .press = run := by
          simp [BatchRun.step, hclosed.modal_eq, KeyDelete.confirm_closed hclosed.modal_eq]
        rw [hstep]
        exact .inr hclosed
    | answer reply =>
        obtain ⟨first, rest, hfirst, -⟩ := hpossible
        rw [hclosed.inFlight_eq] at hfirst
        cases hfirst

/-- What returned is everything that was sent exactly when nothing failed to return. -/
theorem served_perm_iff {answered : List Answered}
    (hsent : (answered.map Prod.fst).flatten = keys)
    (hnonempty : ∀ request ∈ answered, request.1 ≠ []) :
    (served answered).flatten.Perm keys ↔ ∀ request ∈ answered, request.2.isOk = true := by
  have hparts := ((List.filter_append_perm (fun request : Answered => request.2.isOk)
    answered).map Prod.fst).flatten
  rw [hsent, List.map_append, List.flatten_append] at hparts
  constructor
  · intro hperm request hrequest
    by_contra hfailed
    have hlength := hparts.length_eq
    rw [List.length_append] at hlength
    have hserved : (served answered).flatten.length = keys.length := hperm.length_eq
    unfold served at hserved
    -- the failed request's keys are missing
    have hlost : request.1 ∈ (answered.filter fun request => !request.2.isOk).map Prod.fst := by
      apply List.mem_map_of_mem
      rw [List.mem_filter]
      exact ⟨hrequest, by simpa using hfailed⟩
    have hpart := (List.sublist_flatten_of_mem hlost).length_le
    have hpos := List.length_pos_iff.mpr (hnonempty request hrequest)
    omega
  · intro hall
    have hfilter : answered.filter (fun request => request.2.isOk) = answered :=
      List.filter_eq_self.mpr hall
    unfold served
    rw [hfilter, hsent]

/-- Where no key is listed twice, each is in one of the lists. -/
theorem countP_contains_of_perm {lists : List (List Str)} (hperm : lists.flatten.Perm keys)
    (hnodup : keys.Nodup) {key : Str} (hkey : key ∈ keys) :
    lists.countP (·.contains key) = 1 := by
  have hcount : lists.flatten.count key = 1 := by
    rw [hperm.count_eq]
    rw [hnodup.count, if_pos hkey]
  have hnone : ∀ lists : List (List Str), lists.flatten.count key = 0 →
      lists.countP (·.contains key) = 0 := by
    intro lists hzero
    rw [List.countP_eq_zero]
    intro list hlist hcontains
    have hmem : key ∈ lists.flatten := List.mem_flatten.mpr ⟨list, hlist, by simpa using hcontains⟩
    exact List.count_eq_zero.mp hzero hmem
  clear hperm
  induction lists with
  | nil => cases hcount
  | cons list lists ih =>
      rw [List.flatten_cons, List.count_append] at hcount
      rw [List.countP_cons]
      by_cases hmem : key ∈ list
      · have hpos := List.count_pos_iff.mpr hmem
        rw [hnone lists (by omega)]
        simp [hmem]
      · rw [List.count_eq_zero.mpr hmem, Nat.zero_add] at hcount
        rw [ih hcount]
        simp [hmem]

/-- The journal keeps the answers in the order of the events. -/
theorem BatchRun.answered_run {run : BatchRun} {events : List BatchEvent}
    (h : Along (BatchRun.step kind) BatchRun.Possible run events) :
    (∀ request ∈ (Foundation.run (BatchRun.step kind) run events).answered,
        request.2.isOk = true) ↔
      (∀ request ∈ run.answered, request.2.isOk = true) ∧
        ∀ event ∈ events, event.fails = false := by
  induction events generalizing run with
  | nil => simp
  | cons event events ih =>
      rw [run_cons, ih h.2, List.forall_mem_cons]
      cases event with
      | press =>
          have hsame : (run.step kind .press).answered = run.answered := by
            unfold BatchRun.step
            dsimp only
            split <;> rfl
          rw [hsame]
          simp [BatchEvent.fails]
      | answer reply =>
          obtain ⟨batch, rest, hflight, -⟩ := h.1
          have hmore : (run.step kind (.answer reply)).answered =
              run.answered ++ [(batch, reply)] := by
            simp [BatchRun.step, hflight]
          rw [hmore]
          simp only [List.mem_append, List.mem_singleton, BatchEvent.fails,
            Bool.not_eq_false', or_imp, forall_and, forall_eq, and_assoc]

end

/-- A delete that is done has been through its whole list, and reports the keys that are
gone, exactly when no request failed to return. -/
theorem batchDelete_whole_iff (kind : KeyDelete) {app : App} {m : BatchModal}
    (hmodal : kind.modal app = some m) (hfresh : m.Fresh) {events : List BatchEvent}
    (hpossible : Along (BatchRun.step kind) BatchRun.Possible (.start app) events)
    (hdone : kind.modal (run (BatchRun.step kind) (.start app) events).app = none) :
    (run (BatchRun.step kind) (.start app) events).Whole kind m.keys ↔
      ∀ event ∈ events, event.fails = false := by
  have hstart : (BatchRun.start app).Holds kind m.keys := by
    refine .inl ⟨m, hmodal, ?_, ?_⟩
    · intro _
      refine ⟨rfl, rfl, hfresh.total_eq, hfresh.deleted_eq, ?_, ?_, ?_⟩
      · rw [hfresh.nextIndex_eq]
        exact Nat.zero_le _
      · rw [hfresh.nextIndex_eq]
        rfl
      · intro request hrequest
        cases hrequest
    · intro hbusy
      rw [hfresh.deleting_eq] at hbusy
      cases hbusy
  have hholds := run_invariant (BatchRun.Holds kind m.keys) (fun _ _ h hp => h.step hp) hstart
    hpossible
  have hanswers := BatchRun.answered_run hpossible
  have hclosed : (run (BatchRun.step kind) (.start app) events).Closed kind m.keys := by
    rcases hholds with ⟨m', hopen⟩ | hclosed
    · rw [hopen.modal_eq] at hdone
      cases hdone
    · exact hclosed
  have hperm := served_perm_iff hclosed.sent hclosed.nonempty
  have hnone : ∀ request ∈ (BatchRun.start app).answered, request.2.isOk = true := by
    intro request hrequest
    cases hrequest
  rw [hanswers] at hperm
  constructor
  · intro hwhole
    exact (hperm.mp hwhole.attempted).2
  · intro hreturned
    have hattempted := hperm.mpr ⟨hnone, hreturned⟩
    exact ⟨hattempted, fun hnodup _ hkey => countP_contains_of_perm hattempted hnodup hkey,
      hclosed.error_eq⟩

/-- Two marked objects, about to be deleted. -/
def twoMarked : App :=
  { (App.new [] ⟨[], [], false, false⟩ ⟨none, none⟩).1 with
    selectedBucket := some "photos".toList
    selectedKeys := ["a".toList, "b".toList] }

def twoMarkedModal : BatchModal := ⟨["a".toList, "b".toList], 2, 0, 0, false⟩

theorem batchDelete_whole_iff_partial :
    let events := [BatchEvent.press, .answer (.ok ["b".toList])]
    let app := (handleOpenBulkDeleteModal twoMarked).1
    (run (BatchRun.step .marked) (.start app) events).Whole .marked
        ["a".toList, "b".toList] ↔
      ∀ event ∈ events, event.fails = false := by
  intro events app
  have hpossible : Along (BatchRun.step .marked) BatchRun.Possible (.start app) events := by
    refine ⟨trivial, ⟨["a".toList, "b".toList], [], rfl, ?_⟩, trivial⟩
    intro failed hfailed
    obtain rfl := Except.ok.inj hfailed
    decide
  exact @batchDelete_whole_iff .marked app twoMarkedModal rfl ⟨rfl, rfl, rfl, rfl⟩ events
    hpossible rfl

/-- The only request fails and the user tries again: nothing is sent, and the delete is
reported as done. -/
theorem failed_batch_not_retried :
    ¬ ∀ (kind : KeyDelete) (app : App) (m : BatchModal), kind.modal app = some m → m.Fresh →
      ∀ events, Along (BatchRun.step kind) BatchRun.Possible (.start app) events →
        kind.modal (run (BatchRun.step kind) (.start app) events).app = none →
          (run (BatchRun.step kind) (.start app) events).Whole kind m.keys := by
  intro h
  have hpossible : Along (BatchRun.step .marked) BatchRun.Possible
      (.start (handleOpenBulkDeleteModal twoMarked).1)
      [.press, .answer (.error "connection reset"), .press] := by
    refine ⟨trivial, ⟨["a".toList, "b".toList], [], rfl, ?_⟩, trivial, trivial⟩
    intro failed hfailed
    cases hfailed
  have hwhole := h .marked (handleOpenBulkDeleteModal twoMarked).1 twoMarkedModal rfl
    ⟨rfl, rfl, rfl, rfl⟩ _ hpossible rfl
  have hlength := hwhole.attempted.length_eq
  cases hlength

end AbixioUi
