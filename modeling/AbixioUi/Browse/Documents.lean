import AbixioUi.Browse.Shown

/-! # Documents of the selected bucket

The policy and the lifecycle of a bucket are loaded, edited, saved and deleted by
requests whose results do not name the bucket. A text is traced to the bucket whose
document it was made from; a new text is traced to none.
-/

namespace AbixioUi

open Foundation

/-! ## The property -/

/-- The document and the text of the editor are of the given bucket, if of any. -/
structure BucketDocumentState.OwnedBy (state : BucketDocumentState) (selected : Option Str) :
    Prop where
  loaded : ∀ loaded, state.loaded = some loaded → selected = some loaded.asked
  editor : ∀ bucket, state.editor.asked = some bucket → selected = some bucket

/-- Both documents are of the selected bucket. -/
def Browser.OwnsDocuments (browser : Browser) : Prop :=
  ∀ kind, (browser.bucketDocumentState kind).OwnedBy browser.app.selectedBucket

/-- The bucket a result about a document was asked for. -/
def BrowserMessage.documentBucket : BrowserMessage → Option Str
  | .bucketDocumentLoaded _ result => some result.asked
  | .bucketDocumentSaved _ result => some result.asked
  | .bucketDocumentDeleted _ result => some result.asked
  | _ => none

def BucketDocumentState.IsAbsent (state : BucketDocumentState) : Prop :=
  ∃ bucket, state.loaded = some ⟨.absent, bucket⟩

/-- What a message may do to the documents: a result changes them, closes an editing
session or marks a document absent only for the selected bucket; the documents stay
those of the selected bucket; and a text that is saved was made from the document of
the bucket it is saved to. -/
structure Browser.KeepsDocuments (browser : Browser) (message : BrowserMessage)
    (result : Browser × List BrowserTask) : Prop where
  changed : ∀ bucket kind, message.documentBucket = some bucket →
    result.1.bucketDocumentState kind ≠ browser.bucketDocumentState kind →
    browser.app.selectedBucket = some bucket
  closed : ∀ bucket kind, message.documentBucket = some bucket →
    (browser.bucketDocumentState kind).editing = true →
    (result.1.bucketDocumentState kind).editing = false →
    browser.app.selectedBucket = some bucket
  marked : ∀ bucket kind, message.documentBucket = some bucket →
    ¬ (browser.bucketDocumentState kind).IsAbsent →
    (result.1.bucketDocumentState kind).IsAbsent →
    browser.app.selectedBucket = some bucket
  owned : result.1.OwnsDocuments
  saved : ∀ task ∈ result.2, ∀ bucket text origin,
    task.documentWrite = some (bucket, text) → text.asked = some origin → origin = bucket

def BrowserWorld.KeepsDocuments (platform : Platform) (formats : DocumentFormats)
    (world : BrowserWorld) (event : BrowserEvent) : Prop :=
  ∀ surroundings message, world.received event = some (surroundings, message) →
    world.browser.KeepsDocuments message
      (world.browser.update platform formats surroundings message)

/-! ## The condition -/

/-- The state is what a saved document or a failed request would make of it. -/
def BucketDocumentState.Settled (state : BucketDocumentState) (errorPrefix : String) :
    Except String Unit → Prop
  | .ok () => state.cancelEditing = state
  | .error error => state.saving = false ∧ state.error = some (errorPrefix ++ ": " ++ error)

/-- A result about a document is of the selected bucket. A result that only ends saving
may also find the state already so. -/
def BrowserMessage.DocumentDue (browser : Browser) : BrowserMessage → Prop
  | .bucketDocumentLoaded _ result => browser.app.selectedBucket = some result.asked
  | .bucketDocumentSaved kind result =>
      browser.app.selectedBucket = some result.asked ∨
        (browser.bucketDocumentState kind).Settled kind.saveErrorPrefix result.value
  | .bucketDocumentDeleted kind result =>
      browser.app.selectedBucket = some result.asked ∨
        ∃ error, result.value = .error error ∧
          (browser.bucketDocumentState kind).Settled kind.deleteErrorPrefix result.value
  | _ => True

def BrowserWorld.DocumentsDue (world : BrowserWorld) (event : BrowserEvent) : Prop :=
  ∀ surroundings message, world.received event = some (surroundings, message) →
    message.DocumentDue world.browser

/-! ## The document state -/

section DocumentState

variable {state : BucketDocumentState} {selected : Option Str}

theorem BucketDocumentState.new_owned (selected : Option Str) :
    BucketDocumentState.new.OwnedBy selected :=
  ⟨fun _ h => (by cases h), fun _ h => (by cases h)⟩

theorem BucketDocumentState.reset_owned (state : BucketDocumentState) (selected : Option Str) :
    state.reset.OwnedBy selected :=
  ⟨fun _ h => (by cases h), fun _ h => (by cases h)⟩

/-- The text of a document is of the bucket of the document. -/
theorem BucketDocumentState.OwnedBy.loadedText (h : state.OwnedBy selected) {bucket : Str}
    (hbucket : state.loadedText.asked = some bucket) : selected = some bucket := by
  unfold BucketDocumentState.loadedText at hbucket
  split at hbucket
  next text owner hloaded =>
    obtain rfl := Option.some.inj hbucket
    exact h.loaded _ hloaded
  next => cases hbucket

theorem BucketDocumentState.OwnedBy.startEditing (h : state.OwnedBy selected) :
    state.startEditing.OwnedBy selected :=
  ⟨h.loaded, fun _ hbucket => h.loadedText hbucket⟩

theorem BucketDocumentState.OwnedBy.cancelEditing (h : state.OwnedBy selected) :
    state.cancelEditing.OwnedBy selected :=
  ⟨h.loaded, fun _ hbucket => h.loadedText hbucket⟩

/-- A document that was loaded is owned where its bucket is selected. -/
theorem BucketDocumentState.setLoaded_owned_iff (h : state.OwnedBy selected)
    (loaded : Traced Str BucketDocumentLoadState) :
    (state.setLoaded loaded).OwnedBy selected ↔ selected = some loaded.asked := by
  constructor
  · intro hafter
    exact hafter.loaded loaded rfl
  · intro hselected
    have hloaded : ∀ held, (state.setLoaded loaded).loaded = some held →
        selected = some held.asked := by
      intro held hheld
      obtain rfl := Option.some.inj hheld
      exact hselected
    refine ⟨hloaded, fun bucket hbucket => ?_⟩
    simp only [BucketDocumentState.setLoaded] at hbucket
    split at hbucket
    next => exact h.editor bucket hbucket
    next =>
      have hstate : BucketDocumentState.OwnedBy
          { state with loaded := some loaded, editor := ⟨[], none⟩ } selected :=
        ⟨hloaded, fun _ h => by cases h⟩
      exact hstate.loadedText hbucket

theorem Browser.OwnsDocuments.of_same {browser browser' : Browser} (h : browser.OwnsDocuments)
    (hdocuments : browser'.bucketDocumentState = browser.bucketDocumentState)
    (hbucket : browser'.app.selectedBucket = browser.app.selectedBucket) :
    browser'.OwnsDocuments := by
  intro kind
  rw [hdocuments, hbucket]
  exact h kind

/-- A change of one document. -/
theorem withBucketDocumentState_owns {browser : Browser} {kind : BucketDocumentKind}
    {change : BucketDocumentState → BucketDocumentState} (h : browser.OwnsDocuments) :
    (browser.withBucketDocumentState kind change).OwnsDocuments ↔
      (change (browser.bucketDocumentState kind)).OwnedBy browser.app.selectedBucket := by
  cases kind with
  | policy =>
      refine ⟨fun hafter => hafter .policy, fun hchange other => ?_⟩
      cases other with
      | policy => exact hchange
      | lifecycle => exact h .lifecycle
  | lifecycle =>
      refine ⟨fun hafter => hafter .lifecycle, fun hchange other => ?_⟩
      cases other with
      | policy => exact h .policy
      | lifecycle => exact hchange

/-- Only the document of the kind can change. -/
theorem withBucketDocumentState_changes {browser : Browser} {kind other : BucketDocumentKind}
    {change : BucketDocumentState → BucketDocumentState}
    (h : (browser.withBucketDocumentState kind change).bucketDocumentState other ≠
      browser.bucketDocumentState other) :
    change (browser.bucketDocumentState kind) ≠ browser.bucketDocumentState kind := by
  intro heq
  apply h
  cases kind <;> cases other <;> first | rfl | exact heq

theorem withBucketDocumentState_self (browser : Browser) (kind : BucketDocumentKind)
    (change : BucketDocumentState → BucketDocumentState) :
    (browser.withBucketDocumentState kind change).bucketDocumentState kind =
      change (browser.bucketDocumentState kind) := by
  cases kind <;> rfl

end DocumentState

/-! ## Messages -/

section Messages

variable {browser : Browser} {message : BrowserMessage}

/-- A message that is no result and writes nothing. -/
theorem Browser.KeepsDocuments.of_owns {result : Browser × List BrowserTask}
    (hmessage : message.documentBucket = none) (howned : result.1.OwnsDocuments)
    (htasks : ∀ task ∈ result.2, task.documentWrite = none) :
    browser.KeepsDocuments message result where
  changed := by simp [hmessage]
  closed := by simp [hmessage]
  marked := by simp [hmessage]
  owned := howned
  saved := by
    intro task htask bucket text origin hwrite
    rw [htasks task htask] at hwrite
    cases hwrite

/-- The documents and the selected bucket stay as they are. -/
theorem Browser.KeepsDocuments.of_same {result : Browser × List BrowserTask}
    (h : browser.OwnsDocuments) (hmessage : message.documentBucket = none)
    (hdocuments : result.1.bucketDocumentState = browser.bucketDocumentState)
    (hplace : result.1.app.place = browser.app.place)
    (htasks : ∀ task ∈ result.2, task.documentWrite = none) :
    browser.KeepsDocuments message result :=
  .of_owns hmessage (h.of_same hdocuments (congrArg BrowsedPlace.selectedBucket hplace)) htasks

theorem KeepsScreen.keepsDocuments {result : Browser × List BrowserTask}
    (hkeeps : KeepsScreen browser result) (h : browser.OwnsDocuments)
    (hmessage : message.documentBucket = none) : browser.KeepsDocuments message result :=
  .of_same h hmessage hkeeps.documents_eq (congrArg Screen.place hkeeps.screen_eq) fun task htask =>
    harmless_documentWrite (hkeeps.tasks task htask)

/-- A write of tags leaves the documents alone. -/
theorem Browser.KeepsDocuments.of_edit {result : Browser × List BrowserTask}
    (h : browser.OwnsDocuments) (hmessage : message.documentBucket = none)
    (hedit : result.1.screen = browser.screen ∧
      result.1.bucketDocumentState = browser.bucketDocumentState ∧
      ∀ task ∈ result.2, task.tagWrite.isSome = true) :
    browser.KeepsDocuments message result := by
  refine .of_same h hmessage hedit.2.1 (congrArg Screen.place hedit.1) fun task htask => ?_
  have hwrite := hedit.2.2 task htask
  cases task with
  | putBucketDocument _ _ _ _ => cases hwrite
  | _ => rfl

/-- A result keeps the documents where it changes nothing or is of the selected bucket. -/
theorem Browser.KeepsDocuments.of_result {result : Browser × List BrowserTask} {bucket : Str}
    (hmessage : message.documentBucket = some bucket)
    (hdue : browser.app.selectedBucket = some bucket ∨
      result.1.bucketDocumentState = browser.bucketDocumentState)
    (howned : result.1.OwnsDocuments) (htasks : ∀ task ∈ result.2, task.documentWrite = none) :
    browser.KeepsDocuments message result := by
  have hselected : ∀ other kind, message.documentBucket = some other →
      result.1.bucketDocumentState kind ≠ browser.bucketDocumentState kind →
      browser.app.selectedBucket = some other := by
    intro other kind hother hchange
    obtain rfl := Option.some.inj (hmessage.symm.trans hother)
    rcases hdue with hdue | hsame
    · exact hdue
    · exact absurd (congrFun hsame kind) hchange
  refine ⟨hselected, ?_, ?_, howned, ?_⟩
  · intro other kind hother hediting hclosed
    refine hselected other kind hother fun hsame => ?_
    rw [hsame, hediting] at hclosed
    cases hclosed
  · intro other kind hother hbefore hafter
    exact hselected other kind hother fun hsame => hbefore (hsame ▸ hafter)
  · intro task htask other text origin hwrite
    rw [htasks task htask] at hwrite
    cases hwrite

theorem appTasks_documentWrite (tasks : List AppTask) :
    ∀ task ∈ tasks.map BrowserTask.app, task.documentWrite = none := by
  intro task htask
  obtain ⟨appTask, -, rfl⟩ := List.mem_map.mp htask
  rfl

/-- Documents that were reset are of no bucket. -/
theorem owns_of_reset {after : Browser} (policy lifecycle : BucketDocumentState)
    (hpolicy : after.bucketPolicy = policy.reset)
    (hlifecycle : after.bucketLifecycle = lifecycle.reset) : after.OwnsDocuments := by
  intro kind
  cases kind with
  | policy =>
      show after.bucketPolicy.OwnedBy _
      rw [hpolicy]
      exact policy.reset_owned _
  | lifecycle =>
      show after.bucketLifecycle.OwnedBy _
      rw [hlifecycle]
      exact lifecycle.reset_owned _

theorem handleConnectTo_documents (surroundings : Surroundings) (h : browser.OwnsDocuments)
    (name : Str) :
    (browser.handleConnectTo surroundings name).1.OwnsDocuments ∧
      ∀ task ∈ (browser.handleConnectTo surroundings name).2, task.documentWrite = none := by
  unfold Browser.handleConnectTo handleConnectTo
  cases browser.app.connections.find? (·.name = name) with
  | none => exact ⟨h.of_same rfl rfl, appTasks_documentWrite _⟩
  | some connection =>
      cases hkeys : surroundings.resolveKeys connection.name with
      | error e =>
          simp only [hkeys]
          exact ⟨h.of_same rfl rfl, appTasks_documentWrite _⟩
      | ok credentials =>
          simp only [hkeys, S3Client.new]
          refine ⟨owns_of_reset _ _ rfl rfl, fun task htask => ?_⟩
          rcases List.mem_append.mp htask with htask | htask
          · exact appTasks_documentWrite _ task htask
          · rw [List.mem_singleton.mp htask]
            rfl

theorem handleServerAutoConnect_documents (h : browser.OwnsDocuments) (endpoint : Str)
    (noAuth : Bool) :
    (browser.handleServerAutoConnect endpoint noAuth).1.OwnsDocuments ∧
      ∀ task ∈ (browser.handleServerAutoConnect endpoint noAuth).2,
        task.documentWrite = none := by
  unfold Browser.handleServerAutoConnect handleServerAutoConnect
  by_cases hrunning : browser.app.serverRunning = true
  · simp only [hrunning, if_true, S3Client.new]
    refine ⟨owns_of_reset _ _ rfl rfl, fun task htask => ?_⟩
    rcases List.mem_append.mp htask with htask | htask
    · exact appTasks_documentWrite _ task htask
    · rw [List.mem_singleton.mp htask]
      rfl
  · simp only [hrunning]
    exact ⟨h, appTasks_documentWrite _⟩

theorem handleBucketDeleteStepFinished_documents (h : browser.OwnsDocuments)
    (result : Except String BucketDeleteStepResult) :
    (browser.handleBucketDeleteStepFinished result).1.OwnsDocuments ∧
      ∀ task ∈ (browser.handleBucketDeleteStepFinished result).2, task.documentWrite = none := by
  have hkept : (∀ bucket, result ≠ .ok (.bucketDeleted bucket)) →
      (browser.withApp
        (handleBucketDeleteStepFinished browser.app result)).1.OwnsDocuments := fun hne =>
    h.of_same rfl (congrArg BrowsedPlace.selectedBucket
      (handleBucketDeleteStepFinished_keepsPlace browser.app hne).place_eq)
  unfold Browser.handleBucketDeleteStepFinished
  match hdelete : browser.app.bucketDelete, result with
  | none, .ok (.bucketDeleted bucket) =>
      refine ⟨h.of_same rfl ?_, appTasks_documentWrite _⟩
      simp only [Browser.withApp, handleBucketDeleteStepFinished, hdelete]
  | none, .ok (.objectDeleted label) => exact ⟨hkept fun _ => (by simp), appTasks_documentWrite _⟩
  | none, .error error => exact ⟨hkept fun _ => (by simp), appTasks_documentWrite _⟩
  | some state, .ok (.objectDeleted label) =>
      exact ⟨hkept fun _ => (by simp), appTasks_documentWrite _⟩
  | some state, .error error => exact ⟨hkept fun _ => (by simp), appTasks_documentWrite _⟩
  | some state, .ok (.bucketDeleted bucket) =>
      refine ⟨?_, appTasks_documentWrite _⟩
      simp only [Browser.withApp, handleBucketDeleteStepFinished, hdelete]
      by_cases hselected : browser.app.selectedBucket = some bucket
      · simp only [hselected, if_true]
        exact owns_of_reset _ _ rfl rfl
      · simp only [hselected, if_false]
        exact h.of_same rfl rfl

theorem updateApp_keepsDocuments (platform : Platform) (surroundings : Surroundings)
    (h : browser.OwnsDocuments) (message : Message) :
    browser.KeepsDocuments (.app message)
      (browser.updateApp platform surroundings message) := by
  have hkept : message.connects = false →
      (∀ bucket, message ≠ .bucketDeleteStepFinished (.ok (.bucketDeleted bucket))) →
      browser.KeepsDocuments (.app message)
        (browser.withApp (browser.app.update platform surroundings message)) :=
    fun hconnects hdeleted =>
      .of_same h rfl rfl
        (update_keepsPlace browser.app platform surroundings hconnects hdeleted).place_eq
        (appTasks_documentWrite _)
  cases message with
  | connectTo name =>
      obtain ⟨howns, htasks⟩ := handleConnectTo_documents surroundings h name
      exact .of_owns rfl howns htasks
  | serverAutoConnect endpoint noAuth =>
      obtain ⟨howns, htasks⟩ := handleServerAutoConnect_documents h endpoint noAuth
      exact .of_owns rfl howns htasks
  | bucketDeleteStepFinished result =>
      obtain ⟨howns, htasks⟩ := handleBucketDeleteStepFinished_documents h result
      exact .of_owns rfl howns htasks
  | _ => exact hkept rfl fun _ => Message.noConfusion

/-! ## Editing -/

theorem handleOpenBucketDocumentEditor_keeps (h : browser.OwnsDocuments)
    (kind : BucketDocumentKind) :
    browser.KeepsDocuments (.openBucketDocumentEditor kind)
      (browser.handleOpenBucketDocumentEditor kind) := by
  refine .of_owns rfl (fun other => ?_) fun _ htask => by cases htask
  cases other with
  | policy =>
      show BucketDocumentState.OwnedBy (if _ then _ else _) _
      split
      next => exact (h .policy).startEditing
      next => exact (h .policy).cancelEditing
  | lifecycle =>
      show BucketDocumentState.OwnedBy (if _ then _ else _) _
      split
      next => exact (h .lifecycle).startEditing
      next => exact (h .lifecycle).cancelEditing

theorem handleSaveBucketDocument_keeps (formats : DocumentFormats) (h : browser.OwnsDocuments)
    (kind : BucketDocumentKind) :
    browser.KeepsDocuments (.saveBucketDocument kind)
      (browser.handleSaveBucketDocument formats kind) := by
  unfold Browser.handleSaveBucketDocument
  have hnoted : ∀ error, browser.KeepsDocuments (.saveBucketDocument kind)
      (browser.withBucketDocumentState kind ({ · with error := some error }), []) := fun error =>
    .of_owns rfl ((withBucketDocumentState_owns h).mpr ⟨(h kind).loaded, (h kind).editor⟩)
      fun _ htask => by cases htask
  cases hbucket : browser.app.selectedBucket with
  | none => exact .of_owns rfl h fun _ htask => by cases htask
  | some bucket =>
      simp only
      split
      next => exact hnoted _
      next =>
        split
        next => exact hnoted _
        next normalized hnormalized =>
          refine ⟨by simp [BrowserMessage.documentBucket], by simp [BrowserMessage.documentBucket],
            by simp [BrowserMessage.documentBucket],
            (withBucketDocumentState_owns h).mpr ⟨(h kind).loaded, (h kind).editor⟩, ?_⟩
          intro task htask other text origin hwrite horigin
          obtain rfl := List.mem_singleton.mp htask
          obtain ⟨rfl, rfl⟩ := Prod.mk.inj (Option.some.inj hwrite)
          have howned := (h kind).editor origin horigin
          rw [hbucket] at howned
          exact (Option.some.inj howned).symm

/-! ## Results -/

theorem handleBucketDocumentLoaded_keeps_iff (h : browser.OwnsDocuments)
    (kind : BucketDocumentKind) (result : Traced Str (Except String (Option Str))) :
    browser.KeepsDocuments (.bucketDocumentLoaded kind result)
        (browser.handleBucketDocumentLoaded kind result) ↔
      browser.app.selectedBucket = some result.asked := by
  have howned : ∀ loaded, (browser.withBucketDocumentState kind
      (·.setLoaded ⟨loaded, result.asked⟩)).OwnsDocuments ↔
      browser.app.selectedBucket = some result.asked := fun loaded =>
    (withBucketDocumentState_owns h).trans (BucketDocumentState.setLoaded_owned_iff (h kind) _)
  constructor
  · intro hkeeps
    exact (howned _).mp hkeeps.owned
  · intro hselected
    exact .of_result rfl (.inl hselected) ((howned _).mpr hselected)
      fun _ htask => by cases htask

/-- A result that ends saving keeps the documents where its bucket is selected, or where
it changes nothing. -/
theorem endSaving_keeps_iff (h : browser.OwnsDocuments) {message : BrowserMessage}
    {kind : BucketDocumentKind} {bucket : Str} {change : BucketDocumentState → BucketDocumentState}
    {tasks : List BrowserTask} (hmessage : message.documentBucket = some bucket)
    (howned : (change (browser.bucketDocumentState kind)).OwnedBy browser.app.selectedBucket)
    (htasks : ∀ task ∈ tasks, task.documentWrite = none) :
    browser.KeepsDocuments message (browser.withBucketDocumentState kind change, tasks) ↔
      browser.app.selectedBucket = some bucket ∨
        change (browser.bucketDocumentState kind) = browser.bucketDocumentState kind := by
  constructor
  · intro hkeeps
    by_cases hsame : change (browser.bucketDocumentState kind) = browser.bucketDocumentState kind
    · exact .inr hsame
    · refine .inl (hkeeps.changed bucket kind hmessage ?_)
      rw [withBucketDocumentState_self]
      exact hsame
  · intro hdue
    refine .of_result hmessage (hdue.imp_right fun hsame => ?_)
      ((withBucketDocumentState_owns h).mpr howned) htasks
    funext other
    by_contra hchange
    exact withBucketDocumentState_changes hchange hsame

/-- The failure of a request is noted already. -/
theorem noted_iff {state : BucketDocumentState} {error : String} :
    { state with saving := false, error := some error } = state ↔
      state.saving = false ∧ state.error = some error := by
  constructor
  · intro h
    rw [← h]
    exact ⟨rfl, rfl⟩
  · rintro ⟨hsaving, herror⟩
    rw [← hsaving, ← herror]

theorem handleBucketDocumentSaved_keeps_iff (h : browser.OwnsDocuments)
    (kind : BucketDocumentKind) (result : Traced Str (Except String Unit)) :
    browser.KeepsDocuments (.bucketDocumentSaved kind result)
        (browser.handleBucketDocumentSaved kind result.value) ↔
      browser.app.selectedBucket = some result.asked ∨
        (browser.bucketDocumentState kind).Settled kind.saveErrorPrefix result.value := by
  unfold Browser.handleBucketDocumentSaved
  cases hvalue : result.value with
  | ok _ =>
      refine endSaving_keeps_iff h rfl (h kind).cancelEditing fun task htask => ?_
      split at htask
      next =>
        rw [List.mem_singleton.mp htask]
        rfl
      next => cases htask
  | error error =>
      refine (endSaving_keeps_iff h rfl ⟨(h kind).loaded, (h kind).editor⟩
        fun task htask => by cases htask).trans (or_congr_right noted_iff)

theorem handleBucketDocumentDeleted_keeps_iff (h : browser.OwnsDocuments)
    (kind : BucketDocumentKind) (result : Traced Str (Except String Unit)) :
    browser.KeepsDocuments (.bucketDocumentDeleted kind result)
        (browser.handleBucketDocumentDeleted kind result) ↔
      browser.app.selectedBucket = some result.asked ∨
        ∃ error, result.value = .error error ∧
          (browser.bucketDocumentState kind).Settled kind.deleteErrorPrefix result.value := by
  unfold Browser.handleBucketDocumentDeleted
  cases hvalue : result.value with
  | ok _ =>
      have howned : ((browser.withBucketDocumentState kind
          ({ · with saving := false }.setLoaded ⟨.absent, result.asked⟩)).OwnsDocuments) ↔
          browser.app.selectedBucket = some result.asked :=
        (withBucketDocumentState_owns h).trans
          (BucketDocumentState.setLoaded_owned_iff ⟨(h kind).loaded, (h kind).editor⟩ _)
      constructor
      · intro hkeeps
        exact .inl (howned.mp hkeeps.owned)
      · rintro (hselected | ⟨error, herror, -⟩)
        · exact .of_result rfl (.inl hselected) (howned.mpr hselected)
            fun _ htask => by cases htask
        · cases herror
  | error error =>
      refine (endSaving_keeps_iff h rfl ⟨(h kind).loaded, (h kind).editor⟩
        fun task htask => by cases htask).trans (or_congr_right (noted_iff.trans ?_))
      constructor
      · intro hnoted
        exact ⟨error, rfl, hnoted⟩
      · rintro ⟨_, -, hnoted⟩
        exact hnoted

/-- One message keeps the documents exactly where its result is due. -/
theorem update_keepsDocuments_iff (platform : Platform) (formats : DocumentFormats)
    (surroundings : Surroundings) (h : browser.OwnsDocuments) (message : BrowserMessage) :
    browser.KeepsDocuments message
        (browser.update platform formats surroundings message) ↔
      message.DocumentDue browser := by
  have htasks : message.browses = true →
      ∀ task ∈ (browser.update platform formats surroundings message).2,
        task.documentWrite = none := fun hbrowses task htask =>
    harmless_documentWrite
      (update_browses_harmless platform formats surroundings browser hbrowses task htask)
  cases message with
  | app message =>
      exact iff_of_true (updateApp_keepsDocuments platform surroundings h message) trivial
  | selectBucket name =>
      exact iff_of_true (.of_owns rfl (owns_of_reset _ _ rfl rfl) (htasks rfl)) trivial
  | clearSelection =>
      refine iff_of_true (.of_owns rfl (fun kind => ?_) (htasks rfl)) trivial
      cases kind with
      | policy => exact (h .policy).cancelEditing
      | lifecycle => exact (h .lifecycle).cancelEditing
  | createBucketDone bucket result =>
      refine iff_of_true (.of_owns rfl ?_ (htasks rfl)) trivial
      cases result with
      | error e => exact h.of_same rfl rfl
      | ok _ => exact owns_of_reset _ _ rfl rfl
  | deleteDone result =>
      refine iff_of_true (.of_owns rfl ?_ (htasks rfl)) trivial
      cases result with
      | error e => exact h.of_same rfl rfl
      | ok _ => exact owns_of_reset _ _ rfl rfl
  | bucketDocumentLoaded kind result => exact handleBucketDocumentLoaded_keeps_iff h kind result
  | openBucketDocumentEditor kind =>
      exact iff_of_true (handleOpenBucketDocumentEditor_keeps h kind) trivial
  | cancelBucketDocumentEditor kind =>
      exact iff_of_true (.of_owns rfl
        ((withBucketDocumentState_owns h).mpr (h kind).cancelEditing)
        fun _ htask => by cases htask) trivial
  | bucketDocumentEdited kind action =>
      exact iff_of_true (.of_owns rfl
        ((withBucketDocumentState_owns h).mpr ⟨(h kind).loaded, (h kind).editor⟩)
        fun _ htask => by cases htask) trivial
  | saveBucketDocument kind =>
      exact iff_of_true (handleSaveBucketDocument_keeps formats h kind) trivial
  | bucketDocumentSaved kind result => exact handleBucketDocumentSaved_keeps_iff h kind result
  | bucketDocumentDeleted kind result =>
      exact handleBucketDocumentDeleted_keeps_iff h kind result
  | selectObject key =>
      refine iff_of_true (.of_owns rfl ?_ (htasks rfl)) trivial
      simp only [Browser.update, Browser.handleSelectObject]
      split <;> exact h.of_same rfl rfl
  | uploadDone result =>
      refine iff_of_true (.of_owns rfl ?_ (htasks rfl)) trivial
      cases result with
      | error e => exact h.of_same rfl rfl
      | ok _ => exact h.of_same rfl rfl
  | find =>
      refine iff_of_true (.of_owns rfl ?_ (htasks rfl)) trivial
      simp only [Browser.update]
      rcases handleFind_cases browser with hfind | ⟨_, hfind⟩
      · rw [hfind]
        exact h
      · rw [hfind]
        exact h.of_same rfl rfl
  | objectInspectLoaded object result =>
      refine iff_of_true (.of_owns rfl ?_ (htasks rfl)) trivial
      simp only [Browser.update, Browser.handleObjectInspectLoaded]
      split
      next => exact h
      next => exact h.of_same rfl rfl
  | navigatePrefix _ | refresh | objectsLoaded _ | findComplete _ | clearFind
  | toggleObjectSelected _ | selectAllObjects | clearObjectSelection | detailLoaded _
  | previewLoaded _ | versionsLoaded _ | tagsLoaded _ | bucketTagsLoaded _ =>
      exact iff_of_true (.of_owns rfl (h.of_same rfl rfl) (htasks rfl)) trivial
  | addTag | removeTag _ | addBucketTag | removeBucketTag _ =>
      exact iff_of_true (.of_edit h rfl
        (update_edit_screen platform formats surroundings browser rfl)) trivial
  | _ =>
      exact iff_of_true
        ((update_keepsScreen platform formats surroundings browser rfl).keepsDocuments h rfl)
        trivial

end Messages

/-! ## Runs -/

section Runs

variable {world : BrowserWorld}

theorem step_keepsDocuments_iff (platform : Platform) (formats : DocumentFormats)
    (h : world.browser.OwnsDocuments) (event : BrowserEvent) :
    world.KeepsDocuments platform formats event ↔ world.DocumentsDue event :=
  forall_congr' fun surroundings => forall_congr' fun message => forall_congr' fun _ =>
    update_keepsDocuments_iff platform formats surroundings h message

theorem step_ownsDocuments {platform : Platform} {formats : DocumentFormats}
    {event : BrowserEvent} (h : world.browser.OwnsDocuments)
    (hkeeps : world.KeepsDocuments platform formats event) :
    (world.step platform formats event).browser.OwnsDocuments := by
  rw [step_browser]
  unfold BrowserWorld.handle
  cases hreceived : world.received event with
  | none => exact h
  | some pair => exact (hkeeps pair.1 pair.2 hreceived).owned

theorem start_ownsDocuments (connections : List Connection) (serverConfig : ServerConfig)
    (startup : StartupOptions) (server : TagStore) :
    (BrowserWorld.start connections serverConfig startup server).browser.OwnsDocuments := by
  simp only [BrowserWorld.start, issueAll_browser]
  intro kind
  cases kind <;> exact BucketDocumentState.new_owned _

/-- Every step of a run keeps the documents those of the selected bucket exactly if no
result of another bucket arrives, unless it finds the state already as it would leave
it. -/
theorem documents_kept_iff (platform : Platform) (formats : DocumentFormats)
    (connections : List Connection) (serverConfig : ServerConfig) (startup : StartupOptions)
    (server : TagStore) (events : List BrowserEvent) :
    Along (BrowserWorld.step platform formats) (BrowserWorld.KeepsDocuments platform formats)
        (BrowserWorld.start connections serverConfig startup server) events ↔
      Along (BrowserWorld.step platform formats) BrowserWorld.DocumentsDue
        (BrowserWorld.start connections serverConfig startup server) events :=
  along_congr_of_kept (fun world : BrowserWorld => world.browser.OwnsDocuments)
    (fun _ event h => step_keepsDocuments_iff platform formats h event)
    (fun _ _ h hkeeps => step_ownsDocuments h hkeeps)
    (start_ownsDocuments connections serverConfig startup server) events

end Runs

/-! ## The policy of another bucket -/

/-- The user selects one bucket, then another, and the policy of the first arrives. -/
def latePolicy : List BrowserEvent :=
  [.user calm (.selectBucket "public".toList),
    .user calm (.selectBucket "private".toList),
    .deliver calm 1 { emptyBrowserReplies with document := .ok (some "{}".toList) }]

/-- The second bucket is selected and offers the first one's policy for editing. -/
theorem late_policy_offered :
    ¬ Along (BrowserWorld.step .unix unreadable)
      (BrowserWorld.KeepsDocuments .unix unreadable) unconnectedBrowser latePolicy := by
  intro h
  have howned := (h.2.2.1 calm _ rfl).owned .policy
  have hloaded := howned.loaded _ rfl
  exact absurd hloaded (by decide)

end AbixioUi
