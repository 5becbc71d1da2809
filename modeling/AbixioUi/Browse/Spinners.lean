import AbixioUi.App.Waits
import AbixioUi.Browse.Shown

/-! # Spinners

A flag of work in progress waits for the answer of a task in flight. However the user
clicks and in whatever order the answers come, the answers that are open are enough to
clear it, as long as the tasks come back: a search that panics does not.
-/

namespace AbixioUi

open Foundation

/-! ## Awaited answers -/

/-- What a flag of the browser waits for. -/
inductive Awaited
  | app (awaited : AppAwaited)
  | search
  | detail
  | tags
  | versions
  | inspect (object : ObjectId)
  | heal (target : Option ObjectId)
  | document (kind : BucketDocumentKind)
deriving DecidableEq, Repr

/-- The flags. Tags and an inspection are shown for a selected object only. -/
def Browser.awaits (browser : Browser) : Awaited → Bool
  | .app awaited => browser.app.awaits awaited
  | .search => browser.finding
  | .detail => browser.loadingDetail
  | .tags => browser.loadingTags && browser.app.currentSelectedObject.isSome
  | .versions => browser.loadingVersions
  | .inspect object =>
      browser.loadingObjectInspect && decide (browser.app.currentSelectedObject = some object)
  | .heal target => browser.healingObject && decide (browser.healingTarget = target)
  | .document kind => (browser.bucketDocumentState kind).saving

def BrowserTask.answers : BrowserTask → Awaited → Bool
  | .app task, .app awaited => task.answers awaited
  | .find _ _ _, .search => true
  | .fetchDetail _ _, .detail => true
  | .fetchTags _ _, .tags => true
  | .putTags _ _ _, .tags => true
  | .deleteTags _ _, .tags => true
  | .fetchVersions _ _, .versions => true
  | .deleteVersion _ _ _, .versions => true
  | .restoreVersion _ _ _, .versions => true
  | .fetchObjectInspect object, .inspect awaited => decide (object = awaited)
  | .healObject object, .heal target => decide (target = some object)
  | .putBucketDocument _ kind _ _, .document awaited => decide (kind = awaited)
  | _, _ => false

/-- How many answers may follow that of the task. A write is followed by a read. -/
def Browser.left (browser : Browser) : BrowserTask → Awaited → Nat
  | .app _, .app awaited => browser.app.left awaited
  | .putTags _ _ _, .tags => 1
  | .deleteTags _ _, .tags => 1
  | .deleteVersion _ _ _, .versions => 1
  | .restoreVersion _ _ _, .versions => 1
  | _, _ => 0

/-- A handler starts a task for everything it begins to wait for. -/
def Browser.Waits (browser : Browser) (result : Browser × List BrowserTask) : Prop :=
  ∀ awaited, result.1.awaits awaited = true →
    browser.awaits awaited = true ∨ ∃ task ∈ result.2, task.answers awaited = true

/-- The handler of a task's answer leaves the wait over, or starts a task that is nearer
to its end. -/
def Browser.Ends (browser : Browser) (result : Browser × List BrowserTask)
    (ended : BrowserTask) (awaited : Awaited) : Prop :=
  result.1.awaits awaited = true → ∃ task ∈ result.2, task.answers awaited = true ∧
    result.1.left task awaited < browser.left ended awaited

section Waits

variable {browser after : Browser} {tasks : List BrowserTask}

theorem Browser.Waits.of_kept
    (h : ∀ awaited, after.awaits awaited = true → browser.awaits awaited = true) :
    browser.Waits (after, tasks) :=
  fun awaited hawaits => .inl (h awaited hawaits)

theorem Browser.Ends.of_over {result : Browser × List BrowserTask} {ended : BrowserTask}
    {awaited : Awaited} (h : result.1.awaits awaited = false) :
    browser.Ends result ended awaited := by
  intro hawaits
  rw [h] at hawaits
  cases hawaits

/-- A listing that is loaded is the one of the selected bucket. -/
theorem loadObjects_waits
    (h : ∀ awaited, awaited ≠ .app .objects → after.awaits awaited = true →
      browser.awaits awaited = true) : browser.Waits after.loadObjects := by
  intro awaited hawaits
  by_cases hobjects : awaited = .app .objects
  · subst hobjects
    right
    cases hbucket : after.app.selectedBucket with
    | none => simp [Browser.loadObjects, Browser.awaits, App.awaits, hbucket] at hawaits
    | some bucket =>
        exact ⟨.app (.fetchObjects after.app.client bucket after.app.currentPrefix),
          by simp [Browser.loadObjects, App.fetchObjects, hbucket], rfl⟩
  · left
    refine h awaited hobjects ?_
    cases awaited with
    | app awaited =>
        cases awaited with
        | objects => exact absurd rfl hobjects
        | _ => exact hawaits
    | _ => exact hawaits

/-- What is awaited of the application, and for its selection, is all that a message of
another screen may change. -/
theorem withApp_waits {result : App × List AppTask} (h : browser.app.Waits result)
    (hselected : result.1.currentSelectedObject = browser.app.currentSelectedObject) :
    browser.Waits (browser.withApp result) := by
  intro awaited hawaits
  cases awaited with
  | app awaited =>
      rcases h awaited hawaits with hold | ⟨task, htask, hanswers⟩
      · exact .inl hold
      · exact .inr ⟨.app task, List.mem_map_of_mem htask, hanswers⟩
  | tags | inspect _ =>
      left
      simpa only [Browser.withApp, Browser.awaits, hselected] using hawaits
  | _ => exact .inl hawaits

end Waits

/-! ## Messages of the application -/

section Application

variable {browser : Browser}

theorem app_waits {result : App × List AppTask} (h : browser.app.Waits result)
    {awaited : AppAwaited} (hawaits : result.1.awaits awaited = true)
    {started : List BrowserTask} (hsub : (result.2.map BrowserTask.app) ⊆ started) :
    browser.awaits (.app awaited) = true ∨
      ∃ task ∈ started, task.answers (.app awaited) = true := by
  rcases h awaited hawaits with hold | ⟨task, htask, hanswers⟩
  · exact .inl hold
  · exact .inr ⟨.app task, hsub (List.mem_map_of_mem htask), hanswers⟩

/-- A new connection takes the panel and the documents away. -/
theorem connected_waits_all {result : App × List AppTask} (h : browser.app.Waits result) :
    browser.Waits ((browser.withApp result).1.connected,
      (browser.withApp result).2 ++ [.probe]) := by
  intro awaited hawaits
  cases awaited with
  | app awaited => exact app_waits h hawaits (List.subset_append_left _ _)
  | search | detail => exact .inl hawaits
  | document kind => cases kind <;> cases hawaits
  | _ => cases hawaits

theorem handleConnectTo_waits_all (surroundings : Surroundings) (name : Str) :
    browser.Waits (browser.handleConnectTo surroundings name) := by
  have happ := handleConnectTo_waits surroundings browser.app name
  unfold Browser.handleConnectTo
  unfold handleConnectTo at happ ⊢
  cases hfind : browser.app.connections.find? (·.name = name) with
  | none =>
      simp only [hfind] at happ ⊢
      exact withApp_waits happ rfl
  | some connection =>
      cases hkeys : surroundings.resolveKeys connection.name with
      | error e =>
          simp only [hfind, hkeys] at happ ⊢
          exact withApp_waits happ rfl
      | ok credentials =>
          simp only [hfind, hkeys, S3Client.new] at happ ⊢
          exact connected_waits_all happ

theorem handleServerAutoConnect_waits_all (endpoint : Str) (noAuth : Bool) :
    browser.Waits (browser.handleServerAutoConnect endpoint noAuth) := by
  have happ := handleServerAutoConnect_waits browser.app endpoint noAuth
  unfold Browser.handleServerAutoConnect
  unfold handleServerAutoConnect at happ ⊢
  by_cases hrunning : browser.app.serverRunning = true
  · simp only [hrunning, if_true, S3Client.new] at happ ⊢
    exact connected_waits_all happ
  · simp only [hrunning] at happ ⊢
    exact withApp_waits happ rfl

theorem handleBucketDeleteStepFinished_waits_all (result : Except String BucketDeleteStepResult) :
    browser.Waits (browser.handleBucketDeleteStepFinished result) := by
  have happ := handleBucketDeleteStepFinished_waits browser.app result
  have hkept : (∀ bucket, result ≠ .ok (.bucketDeleted bucket)) →
      browser.Waits (browser.withApp (handleBucketDeleteStepFinished browser.app result)) :=
    fun hne => withApp_waits happ (currentSelectedObject_of_place
      (handleBucketDeleteStepFinished_keepsPlace browser.app hne).place_eq)
  unfold Browser.handleBucketDeleteStepFinished
  match hdelete : browser.app.bucketDelete, result with
  | none, .ok (.bucketDeleted bucket) =>
      refine withApp_waits happ ?_
      simp only [handleBucketDeleteStepFinished, hdelete]
  | none, .ok (.objectDeleted label) => exact hkept fun _ => by simp
  | none, .error error => exact hkept fun _ => by simp
  | some state, .ok (.objectDeleted label) => exact hkept fun _ => by simp
  | some state, .error error => exact hkept fun _ => by simp
  | some state, .ok (.bucketDeleted bucket) =>
      by_cases hselected : browser.app.selectedBucket = some bucket
      · simp only [hselected, if_true]
        intro awaited hawaits
        cases awaited with
        | app awaited => exact app_waits happ hawaits (List.Subset.refl _)
        | search | detail => exact .inl hawaits
        | document kind => cases kind <;> cases hawaits
        | _ => cases hawaits
      · simp only [hselected, if_false]
        refine withApp_waits happ ?_
        simp only [handleBucketDeleteStepFinished, hdelete, hselected, if_false]
        rfl

theorem updateApp_waits (platform : Platform) (surroundings : Surroundings) (message : Message) :
    browser.Waits (browser.updateApp platform surroundings message) := by
  have hkept : message.connects = false →
      (∀ bucket, message ≠ .bucketDeleteStepFinished (.ok (.bucketDeleted bucket))) →
      browser.Waits (browser.withApp (browser.app.update platform surroundings message)) :=
    fun hconnects hdeleted =>
      withApp_waits (update_waits platform surroundings browser.app message)
        (currentSelectedObject_of_place
          (update_keepsPlace browser.app platform surroundings hconnects hdeleted).place_eq)
  cases message with
  | connectTo name => exact handleConnectTo_waits_all surroundings name
  | serverAutoConnect endpoint noAuth => exact handleServerAutoConnect_waits_all endpoint noAuth
  | bucketDeleteStepFinished result => exact handleBucketDeleteStepFinished_waits_all result
  | _ => exact hkept rfl fun _ => Message.noConfusion

/-- A task of the application that answers something ends with a message that only the
application handles. -/
theorem updateApp_ends (platform : Platform) (surroundings : Surroundings) {task : AppTask}
    {awaited : AppAwaited} (h : task.answers awaited = true) {replies : Replies}
    {message : Message} (hmessage : task.message replies = some message) :
    browser.Ends (browser.updateApp platform surroundings message) (.app task) (.app awaited) := by
  have happ : browser.updateApp platform surroundings message =
      browser.withApp (browser.app.update platform surroundings message) := by
    cases task with
    | autoConnect _ _ | deleteBucketObject _ _ _ | deleteBucket _ _ => cases awaited <;> cases h
    | fetchBuckets _ | fetchObjects _ _ _ => cases hmessage
    | runSync _ _ => cases awaited <;> cases h
    | _ =>
        cases hmessage
        rfl
  intro hawaits
  rw [happ] at hawaits ⊢
  obtain ⟨next, hnext, hanswers, hless⟩ :=
    message_ends platform surroundings browser.app h hmessage hawaits
  exact ⟨.app next, List.mem_map_of_mem hnext, hanswers, hless⟩

end Application

/-! ## Messages of the browser -/

section Handlers

variable (browser : Browser)

theorem handleSelectBucket_waits (name : Str) : browser.Waits (browser.handleSelectBucket name) := by
  intro awaited hawaits
  cases awaited with
  | app awaited =>
      cases awaited with
      | objects => exact .inr ⟨_, List.mem_append_left _ (List.mem_singleton_self _), rfl⟩
      | _ => exact .inl hawaits
  | search | detail => exact .inl hawaits
  | document kind => cases kind <;> cases hawaits
  | _ => cases hawaits

theorem handleSelectObject_waits (key : Str) :
    browser.Waits (browser.handleSelectObject key) := by
  unfold Browser.handleSelectObject Browser.fetchObjectPanel
  cases hadmin : browser.isAbixio && browser.hasAdmin with
  | true =>
      simp only [Browser.clearObjectAdminState, hadmin, if_true]
      intro awaited hawaits
      cases awaited with
      | app _ | search | document _ => exact .inl hawaits
      | detail => exact .inr ⟨_, List.mem_cons_self, rfl⟩
      | inspect object =>
          refine .inr ⟨_, List.mem_cons_of_mem _ List.mem_cons_self, ?_⟩
          simpa [Browser.awaits, App.currentSelectedObject, BrowserTask.answers] using hawaits
      | tags => exact .inr ⟨_, .tail _ (.tail _ (.head _)), rfl⟩
      | versions => exact .inr ⟨_, .tail _ (.tail _ (.tail _ (.head _))), rfl⟩
      | heal _ => cases hawaits
  | false =>
      simp only [Browser.clearObjectAdminState, hadmin, Bool.false_eq_true, if_false]
      intro awaited hawaits
      cases awaited with
      | app _ | search | document _ => exact .inl hawaits
      | detail => exact .inr ⟨_, List.mem_cons_self, rfl⟩
      | tags => exact .inr ⟨_, .tail _ (.head _), rfl⟩
      | versions => exact .inr ⟨_, .tail _ (.tail _ (.head _)), rfl⟩
      | inspect _ | heal _ => cases hawaits

theorem handleClearSelection_waits : browser.Waits browser.handleClearSelection := by
  refine .of_kept fun awaited hawaits => ?_
  cases awaited with
  | app _ | search | detail => exact hawaits
  | document kind => cases kind <;> cases hawaits
  | _ => cases hawaits

theorem handleFind_waits : browser.Waits browser.handleFind := by
  rcases handleFind_cases browser with hfind | ⟨request, hfind⟩
  · rw [hfind]
    exact .of_kept fun _ hawaits => hawaits
  · rw [hfind]
    intro awaited hawaits
    cases awaited with
    | search => exact .inr ⟨_, List.mem_singleton_self _, rfl⟩
    | _ => exact .inl hawaits

theorem handleCreateBucketDone_waits (bucket : Str) (result : Except String Unit) :
    browser.Waits (browser.handleCreateBucketDone bucket result) := by
  cases result with
  | error e => exact .of_kept fun _ hawaits => hawaits
  | ok _ =>
      intro awaited hawaits
      cases awaited with
      | app awaited =>
          cases awaited with
          | buckets => exact .inr ⟨_, List.mem_cons_self, rfl⟩
          | objects => exact .inr ⟨_, .tail _ (.head _), rfl⟩
          | _ => exact .inl hawaits
      | document kind => cases kind <;> cases hawaits
      | tags | inspect _ => simp [Browser.handleCreateBucketDone, Browser.loadObjects,
          Browser.resetBucketDocumentStates, Browser.awaits, App.currentSelectedObject] at hawaits
      | _ => exact .inl hawaits

/-- A change of one document leaves the waits of the rest. -/
theorem withBucketDocumentState_waits (kind : BucketDocumentKind)
    {change : BucketDocumentState → BucketDocumentState} {tasks : List BrowserTask}
    (hsaving : (change (browser.bucketDocumentState kind)).saving = true →
      (browser.bucketDocumentState kind).saving = true ∨
        ∃ task ∈ tasks, task.answers (.document kind) = true) :
    browser.Waits (browser.withBucketDocumentState kind change, tasks) := by
  intro awaited hawaits
  cases awaited with
  | document other =>
      cases kind <;> cases other
      · exact hsaving hawaits
      · exact .inl hawaits
      · exact .inl hawaits
      · exact hsaving hawaits
  | _ => cases kind <;> exact .inl hawaits

theorem endSaving_waits (kind : BucketDocumentKind)
    {change : BucketDocumentState → BucketDocumentState} {tasks : List BrowserTask}
    (hsaving : ∀ state, (change state).saving = false) :
    browser.Waits (browser.withBucketDocumentState kind change, tasks) := by
  refine withBucketDocumentState_waits browser kind fun hafter => ?_
  rw [hsaving] at hafter
  cases hafter

theorem handleOpenBucketDocumentEditor_waits (kind : BucketDocumentKind) :
    browser.Waits (browser.handleOpenBucketDocumentEditor kind) := by
  refine .of_kept fun awaited hawaits => ?_
  cases awaited with
  | document other => cases kind <;> cases other <;> cases hawaits
  | _ => exact hawaits

theorem handleSaveBucketDocument_waits (formats : DocumentFormats) (kind : BucketDocumentKind) :
    browser.Waits (browser.handleSaveBucketDocument formats kind) := by
  unfold Browser.handleSaveBucketDocument
  split
  next => exact .of_kept fun _ hawaits => hawaits
  next =>
    simp only
    split
    next => exact withBucketDocumentState_waits browser kind .inl
    next =>
      split
      next => exact withBucketDocumentState_waits browser kind .inl
      next =>
        refine withBucketDocumentState_waits browser kind fun _ => .inr ?_
        exact ⟨_, List.mem_singleton_self _, by simp [BrowserTask.answers]⟩

theorem handleAddTag_waits : browser.Waits browser.handleAddTag := by
  unfold Browser.handleAddTag
  simp only
  split
  next => exact .of_kept fun _ hawaits => hawaits
  next =>
    split
    next => exact .of_kept fun _ hawaits => hawaits
    next =>
      intro awaited hawaits
      cases awaited with
      | tags =>
          right
          cases hselected : browser.app.currentSelectedObject with
          | none => simp [Browser.awaits, hselected] at hawaits
          | some object => exact ⟨_, List.mem_singleton_self _, rfl⟩
      | _ => exact .inl hawaits

theorem handleRemoveTag_waits (tagKey : Str) : browser.Waits (browser.handleRemoveTag tagKey) := by
  intro awaited hawaits
  cases awaited with
  | tags =>
      right
      unfold Browser.handleRemoveTag at hawaits ⊢
      cases hselected : browser.app.currentSelectedObject with
      | none => simp [Browser.awaits, hselected] at hawaits
      | some object =>
          simp only
          split <;> exact ⟨_, List.mem_singleton_self _, rfl⟩
  | _ => exact .inl hawaits

/-- A new inspection is of the selected object. -/
theorem inspecting_waits {healed : Browser} {object : ObjectId} {healResult : Option String}
    (hkept : ∀ awaited, healed.awaits awaited = true → browser.awaits awaited = true)
    (hselected : healed.app.currentSelectedObject = some object) :
    browser.Waits ({ healed with
      healResult := healResult
      loadingObjectInspect := true
      objectInspectTarget := some object }, [.fetchObjectInspect object]) := by
  intro awaited hawaits
  cases awaited with
  | inspect inspected =>
      refine .inr ⟨_, List.mem_singleton_self _, ?_⟩
      simpa [Browser.awaits, hselected, BrowserTask.answers] using hawaits
  | _ => exact .inl (hkept _ hawaits)

theorem handleHealObjectFinished_waits (object : ObjectId) (result : Except String HealResponse) :
    browser.Waits (browser.handleHealObjectFinished object result) := by
  have hhealed : ∀ awaited,
      { browser with healingObject := false, healingTarget := none }.awaits awaited = true →
        browser.awaits awaited = true := by
    intro awaited hawaits
    cases awaited with
    | heal _ => cases hawaits
    | _ => exact hawaits
  unfold Browser.handleHealObjectFinished
  by_cases hhealing : browser.healingTarget = some object
  · simp only [hhealing, if_true]
    by_cases hselected : browser.app.currentSelectedObject = some object
    · simp only [hselected, ne_eq, not_true_eq_false, if_false]
      cases result with
      | error error => exact .of_kept hhealed
      | ok heal => exact inspecting_waits browser hhealed hselected
    · simp only [hselected, ne_eq, not_false_eq_true, if_true]
      exact .of_kept hhealed
  · simp only [hhealing, if_false]
    by_cases hselected : browser.app.currentSelectedObject = some object
    · simp only [hselected, ne_eq, not_true_eq_false, if_false]
      cases result with
      | error error => exact .of_kept fun _ hawaits => hawaits
      | ok heal => exact inspecting_waits browser (fun _ hawaits => hawaits) hselected
    · simp only [hselected, ne_eq, not_false_eq_true, if_true]
      exact .of_kept fun _ hawaits => hawaits

theorem handleObjectInspectLoaded_waits (object : ObjectId)
    (result : Traced ObjectId (Except String ObjectInspectResponse)) :
    browser.Waits (browser.handleObjectInspectLoaded object result) := by
  unfold Browser.handleObjectInspectLoaded
  split
  next => exact .of_kept fun _ hawaits => hawaits
  next =>
    refine .of_kept fun awaited hawaits => ?_
    cases awaited with
    | inspect _ => cases hawaits
    | _ => exact hawaits

theorem handleRefreshObjectInspect_waits : browser.Waits browser.handleRefreshObjectInspect := by
  unfold Browser.handleRefreshObjectInspect
  cases hselected : browser.app.currentSelectedObject with
  | none => exact .of_kept fun _ hawaits => hawaits
  | some object =>
      simp only
      split
      next => exact .of_kept fun _ hawaits => hawaits
      next => exact inspecting_waits browser (fun _ hawaits => hawaits) hselected

theorem handleOpenHealConfirm_waits : browser.Waits browser.handleOpenHealConfirm := by
  unfold Browser.handleOpenHealConfirm
  split
  next => exact .of_kept fun _ hawaits => hawaits
  next => split <;> exact .of_kept fun _ hawaits => hawaits

theorem handleConfirmHealObject_waits : browser.Waits browser.handleConfirmHealObject := by
  unfold Browser.handleConfirmHealObject
  split
  next => exact .of_kept fun _ hawaits => hawaits
  next object _ =>
    intro awaited hawaits
    cases awaited with
    | heal target =>
        refine .inr ⟨_, List.mem_singleton_self _, ?_⟩
        simpa [Browser.awaits, BrowserTask.answers, eq_comm] using hawaits
    | _ => exact .inl hawaits

/-- A version that is deleted or restored is one of the selected object. -/
theorem versionWrite_waits (task : BrowserTask) (h : task.answers .versions = true) :
    browser.Waits ({ browser with loadingVersions := true }, [task]) := by
  intro awaited hawaits
  cases awaited with
  | versions => exact .inr ⟨task, List.mem_singleton_self _, h⟩
  | _ => exact .inl hawaits

theorem versionsLeft_waits (error : Option String) (tasks : List BrowserTask) :
    browser.Waits ({ browser with
      loadingVersions := false, app := { browser.app with error := error } }, tasks) := by
  refine .of_kept fun awaited hawaits => ?_
  cases awaited with
  | versions => cases hawaits
  | _ => exact hawaits

theorem tagsLeft_waits (error : Option String) (tasks : List BrowserTask) :
    browser.Waits ({ browser with
      loadingTags := false, app := { browser.app with error := error } }, tasks) := by
  refine .of_kept fun awaited hawaits => ?_
  cases awaited with
  | tags => cases hawaits
  | _ => exact hawaits

end Handlers

/-- Every message starts a task for everything it begins to wait for. -/
theorem browser_update_waits (platform : Platform) (formats : DocumentFormats)
    (surroundings : Surroundings) (browser : Browser) (message : BrowserMessage) :
    browser.Waits (browser.update platform formats surroundings message) := by
  cases message with
  | app message => exact updateApp_waits platform surroundings message
  | selectBucket name => exact handleSelectBucket_waits browser name
  | selectObject key => exact handleSelectObject_waits browser key
  | clearSelection => exact handleClearSelection_waits browser
  | find => exact handleFind_waits browser
  | createBucketDone bucket result => exact handleCreateBucketDone_waits browser bucket result
  | navigatePrefix keyPrefix =>
      refine loadObjects_waits fun awaited hother hawaits => ?_
      cases awaited with
      | app awaited =>
          cases awaited with
          | objects => exact absurd rfl hother
          | _ => exact hawaits
      | search | detail | document _ => exact hawaits
      | _ => cases hawaits
  | refresh => exact loadObjects_waits fun _ _ hawaits => hawaits
  | uploadDone result =>
      cases result with
      | error e => exact .of_kept fun _ hawaits => hawaits
      | ok _ => exact loadObjects_waits fun _ _ hawaits => hawaits
  | deleteDone result =>
      cases result with
      | error e => exact .of_kept fun _ hawaits => hawaits
      | ok _ =>
          refine loadObjects_waits fun awaited hother hawaits => ?_
          cases awaited with
          | app awaited =>
              cases awaited with
              | objects => exact absurd rfl hother
              | _ => exact hawaits
          | search | detail => exact hawaits
          | document kind => cases kind <;> cases hawaits
          | _ => cases hawaits
  | bucketsLoaded result =>
      refine .of_kept fun awaited hawaits => ?_
      cases awaited with
      | app awaited =>
          cases awaited with
          | buckets => cases hawaits
          | _ => exact hawaits
      | _ => exact hawaits
  | objectsLoaded result =>
      refine .of_kept fun awaited hawaits => ?_
      cases awaited with
      | app awaited =>
          cases awaited with
          | objects => cases hawaits
          | _ => exact hawaits
      | _ => exact hawaits
  | refreshAll =>
      intro awaited hawaits
      cases awaited with
      | app awaited =>
          cases awaited with
          | buckets => exact .inr ⟨_, List.mem_cons_self, rfl⟩
          | _ => exact .inl hawaits
      | _ => exact .inl hawaits
  | findComplete _ =>
      refine .of_kept fun awaited hawaits => ?_
      cases awaited with
      | search => cases hawaits
      | _ => exact hawaits
  | detailLoaded _ =>
      refine .of_kept fun awaited hawaits => ?_
      cases awaited with
      | detail => cases hawaits
      | _ => exact hawaits
  | versionsLoaded _ =>
      refine .of_kept fun awaited hawaits => ?_
      cases awaited with
      | versions => cases hawaits
      | _ => exact hawaits
  | tagsLoaded _ =>
      refine .of_kept fun awaited hawaits => ?_
      cases awaited with
      | tags => cases hawaits
      | _ => exact hawaits
  | upload file =>
      simp only [Browser.update, Browser.handleUpload]
      split <;> exact .of_kept fun _ hawaits => hawaits
  | createBucket =>
      simp only [Browser.update, Browser.handleCreateBucket]
      split <;> exact .of_kept fun _ hawaits => hawaits
  | deleteVersion versionId =>
      simp only [Browser.update, Browser.handleDeleteVersion]
      split
      next => exact versionWrite_waits browser _ rfl
      next => exact .of_kept fun _ hawaits => hawaits
  | restoreVersion versionId =>
      simp only [Browser.update, Browser.handleRestoreVersion]
      split
      next => exact versionWrite_waits browser _ rfl
      next => exact .of_kept fun _ hawaits => hawaits
  | versionDeleted result =>
      simp only [Browser.update, Browser.handleVersionDeleted]
      split
      next =>
        split
        next => exact .of_kept fun _ hawaits => hawaits
        next => exact versionsLeft_waits browser browser.app.error []
      next => exact versionsLeft_waits browser _ []
  | versionRestored result =>
      simp only [Browser.update, Browser.handleVersionRestored]
      split
      next =>
        split
        next => exact .of_kept fun _ hawaits => hawaits
        next => exact versionsLeft_waits browser browser.app.error []
      next => exact versionsLeft_waits browser _ []
  | tagsSaved result =>
      simp only [Browser.update, Browser.handleTagsSaved]
      split
      next =>
        split
        next => exact .of_kept fun _ hawaits => hawaits
        next => exact tagsLeft_waits browser browser.app.error []
      next => exact tagsLeft_waits browser _ []
  | addTag => exact handleAddTag_waits browser
  | removeTag tagKey => exact handleRemoveTag_waits browser tagKey
  | addBucketTag =>
      simp only [Browser.update, Browser.handleAddBucketTag]
      split <;> exact .of_kept fun _ hawaits => hawaits
  | bucketTagsSaved result =>
      cases result <;> exact .of_kept fun _ hawaits => hawaits
  | bucketDocumentLoaded kind result => exact endSaving_waits browser kind fun _ => rfl
  | openBucketDocumentEditor kind => exact handleOpenBucketDocumentEditor_waits browser kind
  | cancelBucketDocumentEditor kind => exact endSaving_waits browser kind fun _ => rfl
  | bucketDocumentEdited kind action => exact withBucketDocumentState_waits browser kind .inl
  | saveBucketDocument kind => exact handleSaveBucketDocument_waits browser formats kind
  | bucketDocumentSaved kind result =>
      simp only [Browser.update, Browser.handleBucketDocumentSaved]
      split <;> exact endSaving_waits browser kind fun _ => rfl
  | bucketDocumentDeleted kind result =>
      simp only [Browser.update, Browser.handleBucketDocumentDeleted]
      split <;> exact endSaving_waits browser kind fun _ => rfl
  | objectInspectLoaded object result =>
      exact handleObjectInspectLoaded_waits browser object result
  | refreshObjectInspect => exact handleRefreshObjectInspect_waits browser
  | openHealConfirm => exact handleOpenHealConfirm_waits browser
  | confirmHealObject => exact handleConfirmHealObject_waits browser
  | healObjectFinished object result => exact handleHealObjectFinished_waits browser object result
  | _ => exact .of_kept fun _ hawaits => hawaits

/-! ## Answers -/

section Answers

variable (platform : Platform) (formats : DocumentFormats) (surroundings : Surroundings)
  (browser : Browser)

theorem handleObjectInspectLoaded_over (object : ObjectId)
    (result : Traced ObjectId (Except String ObjectInspectResponse)) :
    (browser.handleObjectInspectLoaded object result).1.awaits (.inspect object) = false := by
  unfold Browser.handleObjectInspectLoaded
  by_cases hselected : browser.app.currentSelectedObject = some object
  · simp only [hselected, ne_eq, not_true_eq_false, if_false]
    rfl
  · simp [hselected, Browser.awaits]

theorem handleHealObjectFinished_over (object : ObjectId) (result : Except String HealResponse) :
    (browser.handleHealObjectFinished object result).1.awaits (.heal (some object)) = false := by
  unfold Browser.handleHealObjectFinished
  by_cases hhealing : browser.healingTarget = some object
  · simp only [hhealing, if_true]
    split
    next => rfl
    next => cases result <;> rfl
  · simp only [hhealing, if_false]
    split
    next => simp [Browser.awaits, hhealing]
    next => cases result <;> simp [Browser.awaits, Browser.withError, hhealing]

theorem handleBucketDocumentSaved_over (kind : BucketDocumentKind)
    (result : Except String Unit) :
    (browser.handleBucketDocumentSaved kind result).1.awaits (.document kind) = false := by
  unfold Browser.handleBucketDocumentSaved
  cases result <;> cases kind <;> rfl

/-- A saved tag is read back while an object is selected. -/
theorem handleTagsSaved_ends (result : Except String Unit) (ended : BrowserTask)
    (h : browser.left ended .tags = 1) :
    browser.Ends (browser.handleTagsSaved result) ended .tags := by
  unfold Browser.handleTagsSaved
  cases result with
  | error error => exact .of_over rfl
  | ok _ =>
      cases hselected : browser.app.currentSelectedObject with
      | none => exact .of_over rfl
      | some object =>
          refine fun _ => ⟨_, List.mem_singleton_self _, rfl, ?_⟩
          rw [h]
          exact Nat.zero_lt_one

theorem handleVersionDeleted_ends (result : Except String Unit) (ended : BrowserTask)
    (h : browser.left ended .versions = 1) :
    browser.Ends (browser.handleVersionDeleted result) ended .versions := by
  unfold Browser.handleVersionDeleted
  cases result with
  | error error => exact .of_over rfl
  | ok _ =>
      cases hselected : browser.app.currentSelectedObject with
      | none => exact .of_over rfl
      | some object =>
          refine fun _ => ⟨_, List.mem_singleton_self _, rfl, ?_⟩
          rw [h]
          exact Nat.zero_lt_one

theorem handleVersionRestored_ends (result : Except String Unit) (ended : BrowserTask)
    (h : browser.left ended .versions = 1) :
    browser.Ends (browser.handleVersionRestored result) ended .versions := by
  unfold Browser.handleVersionRestored
  cases result with
  | error error => exact .of_over rfl
  | ok _ =>
      cases hselected : browser.app.currentSelectedObject with
      | none => exact .of_over rfl
      | some object =>
          refine fun _ => ⟨_, List.mem_cons_self, rfl, ?_⟩
          rw [h]
          exact Nat.zero_lt_one

/-- Every task ends what its answer is awaited for. -/
theorem browser_message_ends {request : BrowserRequest} {awaited : Awaited}
    (h : request.task.answers awaited = true) {replies : BrowserReplies}
    {message : BrowserMessage} (hmessage : request.message replies = some message) :
    browser.Ends (browser.update platform formats surroundings message) request.task
      awaited := by
  obtain ⟨task, cell⟩ := request
  cases task with
  | app task =>
      cases awaited with
      | app awaited =>
          have hanswers : task.answers awaited = true := h
          cases task with
          | fetchBuckets _ =>
              cases hmessage
              cases awaited with
              | buckets => exact .of_over rfl
              | _ => cases h
          | fetchObjects _ _ _ =>
              cases hmessage
              cases awaited with
              | objects => exact .of_over rfl
              | _ => cases h
          | _ =>
              simp only [BrowserRequest.message, Option.map_eq_some_iff] at hmessage
              obtain ⟨sent, hsent, rfl⟩ := hmessage
              exact updateApp_ends platform surroundings hanswers hsent
      | _ => cases h
  | find client place pattern =>
      cases awaited with
      | search =>
          simp only [BrowserRequest.message] at hmessage
          split at hmessage
          next =>
            cases hmessage
            exact .of_over rfl
          next =>
            obtain ⟨found, -, rfl⟩ := Option.map_eq_some_iff.mp hmessage
            exact .of_over rfl
      | _ => cases h
  | fetchDetail _ _ =>
      cases hmessage
      cases awaited with
      | detail => exact .of_over rfl
      | _ => cases h
  | fetchObjectInspect object =>
      cases hmessage
      cases awaited with
      | inspect inspected =>
          obtain rfl : object = inspected := by simpa [BrowserTask.answers] using h
          exact .of_over (handleObjectInspectLoaded_over browser object _)
      | _ => cases h
  | healObject object =>
      cases hmessage
      cases awaited with
      | heal target =>
          obtain rfl : target = some object := by simpa [BrowserTask.answers] using h
          exact .of_over (handleHealObjectFinished_over browser object _)
      | _ => cases h
  | fetchTags _ _ =>
      cases hmessage
      cases awaited with
      | tags => exact .of_over rfl
      | _ => cases h
  | putTags _ _ _ | deleteTags _ _ =>
      cases hmessage
      cases awaited with
      | tags => exact handleTagsSaved_ends browser _ _ rfl
      | _ => cases h
  | fetchVersions _ _ =>
      cases hmessage
      cases awaited with
      | versions => exact .of_over rfl
      | _ => cases h
  | deleteVersion _ _ _ =>
      cases hmessage
      cases awaited with
      | versions => exact handleVersionDeleted_ends browser _ _ rfl
      | _ => cases h
  | restoreVersion _ _ _ =>
      cases hmessage
      cases awaited with
      | versions => exact handleVersionRestored_ends browser _ _ rfl
      | _ => cases h
  | putBucketDocument _ kind _ _ =>
      cases hmessage
      cases awaited with
      | document saved =>
          obtain rfl : kind = saved := by simpa [BrowserTask.answers] using h
          exact .of_over (handleBucketDocumentSaved_over browser kind _)
      | _ => cases h
  | _ => cases awaited <;> cases h

end Answers

/-! ## Runs -/

namespace BrowserWorld

/-- A search that ends has its result. Any other task does anyway. -/
def Answered (world : BrowserWorld) : BrowserEvent → Prop
  | .user _ _ => True
  | .deliver _ index replies =>
      ∀ request, world.inFlight[index]? = some request → (request.message replies).isSome = true

/-- The world after the answer of a task; `none` where the task panics. -/
def deliver (platform : Platform) (formats : DocumentFormats) (world : BrowserWorld)
    (index : Nat) (answer : Surroundings × BrowserReplies) : Option BrowserWorld :=
  world.inFlight[index]?.bind fun request =>
    (request.message answer.2).map fun _ =>
      world.step platform formats (.deliver answer.1 index answer.2)

/-- What is awaited is the answer of a request in flight. -/
def Covers (world : BrowserWorld) (awaited : Awaited) : Prop :=
  Covered (fun (request : BrowserRequest) => request.task.answers awaited = true)
    (world.browser.awaits awaited = true) world.inFlight

end BrowserWorld

section Runs

variable (platform : Platform) (formats : DocumentFormats) {world : BrowserWorld}

/-- The tasks a step starts are in flight after it. -/
theorem issueAll_inFlight (tasks : List BrowserTask) :
    ∃ started, (tasks.foldl .issue world).inFlight = world.inFlight ++ started ∧
      started.map (·.task) = tasks := by
  induction tasks generalizing world with
  | nil => exact ⟨[], (List.append_nil _).symm, rfl⟩
  | cons task tasks ih =>
      obtain ⟨started, hflight, htasks⟩ := @ih (world.issue task)
      refine ⟨⟨task, world.server.look task⟩ :: started, ?_, ?_⟩
      · rw [List.foldl_cons, hflight]
        simp [BrowserWorld.issue]
      · rw [List.map_cons, htasks]

theorem step_inFlight (event : BrowserEvent) :
    ∃ started, (world.step platform formats event).inFlight =
        world.remaining event ++ started ∧
      started.map (·.task) = (world.handle platform formats event).2 :=
  issueAll_inFlight _

theorem mem_of_map_task {started : List BrowserRequest} {tasks : List BrowserTask}
    (h : started.map (·.task) = tasks) {p : BrowserTask → Prop} (hp : ∃ task ∈ tasks, p task) :
    ∃ request ∈ started, p request.task := by
  obtain ⟨task, htask, hholds⟩ := hp
  rw [← h] at htask
  obtain ⟨request, hrequest, heq⟩ := List.mem_map.mp htask
  exact ⟨request, hrequest, heq ▸ hholds⟩

/-- Only a search can end without a result. -/
theorem message_isSome {request : BrowserRequest} {awaited : Awaited} (h : awaited ≠ .search)
    (hanswers : request.task.answers awaited = true) (replies : BrowserReplies) :
    (request.message replies).isSome = true := by
  obtain ⟨task, cell⟩ := request
  cases task with
  | app task => cases task <;> rfl
  | find _ _ _ =>
      cases awaited with
      | search => exact absurd rfl h
      | _ => cases hanswers
  | _ => rfl

/-- The waits of the handler are those of the step. -/
theorem handle_waits {event : BrowserEvent} {awaited : Awaited}
    (h : (world.handle platform formats event).1.awaits awaited = true) :
    world.browser.awaits awaited = true ∨
      ∃ task ∈ (world.handle platform formats event).2, task.answers awaited = true := by
  unfold BrowserWorld.handle at h ⊢
  cases hreceived : world.received event with
  | none =>
      rw [hreceived] at h
      exact .inl h
  | some received =>
      rw [hreceived] at h
      exact browser_update_waits platform formats received.1 world.browser received.2 awaited h

/-- A request that ends with a message leaves its wait over, or starts a nearer one. -/
theorem handle_ends {surroundings : Surroundings} {index : Nat} {replies : BrowserReplies}
    {request : BrowserRequest} {awaited : Awaited} (hat : world.inFlight[index]? = some request)
    (hanswers : request.task.answers awaited = true)
    (hmessage : (request.message replies).isSome = true) :
    world.browser.Ends
      (world.handle platform formats (.deliver surroundings index replies)) request.task
      awaited := by
  obtain ⟨message, hsome⟩ := Option.isSome_iff_exists.mp hmessage
  have hreceived : world.received (.deliver surroundings index replies) =
      some (surroundings, message) := by
    simp [BrowserWorld.received, hat, hsome]
  unfold BrowserWorld.handle
  rw [hreceived]
  exact browser_message_ends platform formats surroundings world.browser hanswers hsome

/-- What is awaited stays the answer of a request in flight. -/
theorem step_covers {awaited : Awaited} {event : BrowserEvent} (h : world.Covers awaited)
    (hanswered : awaited = .search → world.Answered event) :
    (world.step platform formats event).Covers awaited := by
  obtain ⟨started, hflight, htasks⟩ := @step_inFlight platform formats world event
  have hon : (world.step platform formats event).browser.awaits awaited = true →
      world.browser.awaits awaited = true ∨
        ∃ request ∈ started, request.task.answers awaited = true := by
    intro hawaits
    rw [step_browser] at hawaits
    rcases handle_waits platform formats hawaits with hold | hstarted
    · exact .inl hold
    · exact .inr (mem_of_map_task htasks hstarted)
  unfold BrowserWorld.Covers
  rw [hflight]
  cases event with
  | user _ _ => exact Covered.start h hon
  | deliver surroundings index replies =>
      cases hat : world.inFlight[index]? with
      | none =>
          have hsame : world.inFlight.eraseIdx index = world.inFlight :=
            List.eraseIdx_of_length_le (List.getElem?_eq_none_iff.mp hat)
          rw [BrowserWorld.remaining, hsame]
          exact Covered.start h hon
      | some request =>
          refine Covered.finish h hat hon fun hanswers hafter => ?_
          have hmessage : (request.message replies).isSome = true := by
            by_cases hsearch : awaited = .search
            · exact hanswered hsearch request hat
            · exact message_isSome hsearch hanswers replies
          rw [step_browser] at hafter
          obtain ⟨task, htask, hnext, _⟩ :=
            handle_ends platform formats hat hanswers hmessage hafter
          exact mem_of_map_task htasks (p := fun task => task.answers awaited = true)
            ⟨task, htask, hnext⟩

/-- The browser starts with its list of buckets on its way, or without a wait. -/
theorem start_covers (connections : List Connection) (serverConfig : ServerConfig)
    (startup : StartupOptions) (server : TagStore) (awaited : Awaited) :
    (BrowserWorld.start connections serverConfig startup server).Covers awaited := by
  intro hawaits
  simp only [BrowserWorld.start, issueAll_browser] at hawaits ⊢
  obtain ⟨started, hflight, htasks⟩ := @issueAll_inFlight
    ⟨(Browser.new connections serverConfig startup).1, [], server, []⟩
    (Browser.new connections serverConfig startup).2
  rw [hflight, List.nil_append]
  refine mem_of_map_task htasks (p := fun task => task.answers awaited = true) ?_
  cases awaited with
  | app awaited =>
      cases awaited with
      | buckets =>
          have hloading : startup.connect.2.2 = true := hawaits
          refine ⟨.app (.fetchBuckets startup.connect.1), ?_, rfl⟩
          simp [Browser.new, App.new, hloading]
      | _ => cases hawaits
  | inspect _ | heal _ => cases hawaits
  | document kind => cases kind <;> cases hawaits
  | _ => cases hawaits

/-- The wait is over, or a request in flight ends it after fewer answers than `n`. -/
def BrowserWorld.Near (awaited : Awaited) (n : Nat) (world : BrowserWorld) : Prop :=
  world.browser.awaits awaited = true → ∃ request ∈ world.inFlight,
    request.task.answers awaited = true ∧ world.browser.left request.task awaited < n

/-- Every request can be answered. -/
theorem message_answerable (request : BrowserRequest) :
    ∃ replies, (request.message replies).isSome = true := by
  obtain ⟨task, cell⟩ := request
  refine ⟨{ emptyBrowserReplies with listing := .error "" }, ?_⟩
  cases task with
  | app task => cases task <;> rfl
  | _ => rfl

/-- The answer of the nearest request brings the end of the wait nearer. -/
theorem deliver_nearer {awaited : Awaited} {n : Nat} (h : world.Near awaited n)
    (hawaits : ¬ world.browser.awaits awaited = false) :
    ∃ index, (∃ answer, (world.deliver platform formats index answer).isSome = true) ∧
      ∀ answer after, world.deliver platform formats index answer = some after →
        ∃ m, m < n ∧ after.Near awaited m := by
  obtain ⟨request, hrequest, hanswers, hless⟩ := h (by simpa using hawaits)
  obtain ⟨index, hat⟩ := List.mem_iff_getElem?.mp hrequest
  refine ⟨index, ?_, ?_⟩
  · obtain ⟨replies, hreplies⟩ := message_answerable request
    exact ⟨(calm, replies), by simpa [BrowserWorld.deliver, hat] using hreplies⟩
  · intro answer after hafter
    simp only [BrowserWorld.deliver, hat, Option.bind_some, Option.map_eq_some_iff] at hafter
    obtain ⟨message, hmessage, heq⟩ := hafter
    subst heq
    refine ⟨world.browser.left request.task awaited, hless, fun hstill => ?_⟩
    rw [step_browser] at hstill ⊢
    obtain ⟨task, htask, hnext, hnearer⟩ := handle_ends platform formats hat hanswers
      (Option.isSome_iff_exists.mpr ⟨message, hmessage⟩) hstill
    obtain ⟨started, hflight, htasks⟩ :=
      @step_inFlight platform formats world (.deliver answer.1 index answer.2)
    obtain ⟨next, hstarted, hboth⟩ := mem_of_map_task htasks
      (p := fun task => task.answers awaited = true ∧
        (world.handle platform formats (.deliver answer.1 index answer.2)).1.left task awaited <
          world.browser.left request.task awaited) ⟨task, htask, hnext, hnearer⟩
    exact ⟨next, hflight ▸ List.mem_append_right _ hstarted, hboth.1, hboth.2⟩

theorem settles_of_covers {awaited : Awaited} (h : world.Covers awaited) :
    Settles (BrowserWorld.deliver platform formats)
      (fun world => world.browser.awaits awaited = false) world := by
  by_cases hawaits : world.browser.awaits awaited = true
  · obtain ⟨request, hrequest, hanswers⟩ := h hawaits
    refine settles_of_nearer (BrowserWorld.Near awaited)
      (fun n world hnear hgoal => deliver_nearer platform formats hnear hgoal)
      (n := world.browser.left request.task awaited + 1) ?_
    exact fun _ => ⟨request, hrequest, hanswers, Nat.lt_succ_self _⟩
  · exact .done (by simpa using hawaits)

end Runs

/-- After every run the answers that are open can be delivered in an order that clears a
flag, whatever results the tasks come back with; for the flag of a search, if no search
that ended in the run has panicked. A search that panics comes back with no result. -/
theorem spinners_settle (platform : Platform) (formats : DocumentFormats)
    (connections : List Connection) (serverConfig : ServerConfig) (startup : StartupOptions)
    (server : TagStore) (awaited : Awaited) {events : List BrowserEvent}
    (hanswered : awaited = .search → Along (BrowserWorld.step platform formats)
      BrowserWorld.Answered (.start connections serverConfig startup server) events) :
    Settles (BrowserWorld.deliver platform formats)
      (fun world => world.browser.awaits awaited = false)
      (run (BrowserWorld.step platform formats)
        (.start connections serverConfig startup server) events) := by
  refine settles_of_covers platform formats ?_
  have hstart := start_covers connections serverConfig startup server awaited
  by_cases hsearch : awaited = .search
  · exact run_invariant (fun (world : BrowserWorld) => world.Covers awaited)
      (fun _ _ hcovers hok => step_covers platform formats hcovers fun _ => hok) hstart
      (hanswered hsearch)
  · exact run_invariant (fun (world : BrowserWorld) => world.Covers awaited)
      (fun _ _ hcovers _ => step_covers platform formats hcovers fun h => absurd h hsearch) hstart
      (along_true _ events)

/-! ## A search and a tag that is saved -/

/-- The user searches a bucket and saves a tag of an object in it. -/
def searchAndTag : List BrowserEvent :=
  [.user calm (.selectBucket "data".toList),
    .deliver calm 0 emptyBrowserReplies,
    .user calm (.objectFilterChanged "a".toList),
    .user calm .find,
    .user calm (.selectObject "a".toList),
    .user calm (.tagKeyChanged "k".toList),
    .user calm .addTag]

theorem spinners_settle_search :
    (run (BrowserWorld.step .unix unreadable) unconnectedBrowser
        searchAndTag).browser.awaits .search = true ∧
      (run (BrowserWorld.step .unix unreadable) unconnectedBrowser
        searchAndTag).browser.awaits .tags = true ∧
      Settles (BrowserWorld.deliver .unix unreadable)
        (fun world => world.browser.awaits .search = false)
        (run (BrowserWorld.step .unix unreadable) unconnectedBrowser searchAndTag) := by
  refine ⟨by decide, by decide, spinners_settle _ _ _ _ _ _ _ fun _ => ?_⟩
  refine ⟨trivial, fun request hrequest => ?_, trivial, trivial, trivial, trivial, trivial, trivial⟩
  obtain rfl := Option.some.inj hrequest
  rfl

end AbixioUi
