import AbixioUi.App.Active
import AbixioUi.Browse.Shown

/-! # What is connected and selected

The connected server and the selection, and how every message changes them. A handler
that changes them clears the state of the object, but for the one that learns of a bucket
that was created.
-/

namespace AbixioUi

open Foundation

/-! ## Clearing the state of the object -/

/-- The messages whose handlers clear the state of the object. -/
def Browser.clearsObject (surroundings : Surroundings) (browser : Browser) :
    BrowserMessage → Bool
  | .app (.bucketDeleteStepFinished (.ok (.bucketDeleted bucket))) =>
      browser.app.bucketDelete.isSome && decide (browser.app.selectedBucket = some bucket)
  | .app message => (browser.app.switchesTo surroundings message).isSome
  | .selectBucket _ | .navigatePrefix _ | .selectObject _ | .clearSelection
  | .deleteDone (.ok _) => true
  | _ => false

def BrowserWorld.clearsObject (world : BrowserWorld) (event : BrowserEvent) : Bool :=
  match world.received event with
  | some (surroundings, message) => world.browser.clearsObject surroundings message
  | none => false

/-! ## What is chosen -/

/-- The connected server and the selection. -/
def App.chosen (app : App) : Str × Selection := (app.client.endpoint, app.selection)

section Chosen

variable {browser : Browser} (platform : Platform) (surroundings : Surroundings)

/-- The browser hands a message on and adds to what the application does. -/
theorem updateApp_app (message : Message) :
    (browser.updateApp platform surroundings message).1.app =
      (browser.app.update platform surroundings message).1 := by
  cases message with
  | connectTo name =>
      simp only [Browser.updateApp, Browser.handleConnectTo]
      split
      next => rfl
      next =>
        split
        next => rfl
        next => rfl
  | serverAutoConnect endpoint noAuth =>
      simp only [Browser.updateApp, Browser.handleServerAutoConnect]
      split
      next => rfl
      next => rfl
  | bucketDeleteStepFinished result =>
      simp only [Browser.updateApp, Browser.handleBucketDeleteStepFinished]
      split
      next =>
        split
        next => rfl
        next => rfl
      next => rfl
  | _ => rfl

/-- A bucket that is not selected, or whose delete nobody waits for, takes no selection. -/
theorem bucketDeleted_chosen (app : App) {bucket : Str}
    (h : (app.bucketDelete.isSome && decide (app.selectedBucket = some bucket)) = false) :
    (handleBucketDeleteStepFinished app (.ok (.bucketDeleted bucket))).1.chosen = app.chosen := by
  unfold handleBucketDeleteStepFinished
  cases hdelete : app.bucketDelete with
  | none => rfl
  | some state =>
      have hselected : app.selectedBucket ≠ some bucket := by simpa [hdelete] using h
      simp only [if_neg hselected]
      rfl

/-- A message that connects to no server and ends no bucket delete keeps the choice. -/
theorem update_kept {message : Message} (hconnects : message.connects = false)
    (hdeleted : ∀ bucket, message ≠ .bucketDeleteStepFinished (.ok (.bucketDeleted bucket))) :
    (browser.app.update platform surroundings message).1.chosen = browser.app.chosen := by
  have hstays : browser.app.switchesTo surroundings message = none := by
    cases message with
    | connectTo _ | serverAutoConnect _ _ => cases hconnects
    | _ => rfl
  have hclient := update_client platform surroundings browser.app message
  rw [hstays, Option.getD_none] at hclient
  exact Prod.ext hclient (congrArg BrowsedPlace.selection
    (update_keepsPlace browser.app platform surroundings hconnects hdeleted).place_eq)

/-- The application leaves the choice where its message clears nothing. -/
theorem update_chosen {message : Message}
    (h : browser.clearsObject surroundings (.app message) = false) :
    (browser.app.update platform surroundings message).1.chosen = browser.app.chosen := by
  cases message with
  | connectTo name =>
      simp only [Browser.clearsObject, App.switchesTo] at h
      simp only [App.update, handleConnectTo]
      cases hfind : browser.app.connections.find? (·.name = name) with
      | none => rfl
      | some connection =>
          simp only [hfind] at h
          cases hkeys : surroundings.resolveKeys connection.name with
          | error e =>
              simp only [hkeys]
              rfl
          | ok credentials =>
              rw [hkeys] at h
              cases h
  | serverAutoConnect endpoint noAuth =>
      simp only [Browser.clearsObject, App.switchesTo] at h
      simp only [App.update, handleServerAutoConnect]
      cases hrunning : browser.app.serverRunning with
      | false => rfl
      | true =>
          rw [hrunning] at h
          cases h
  | bucketDeleteStepFinished result =>
      cases result with
      | error e => exact update_kept platform surroundings rfl fun _ => by simp
      | ok finished =>
          cases finished with
          | objectDeleted label => exact update_kept platform surroundings rfl fun _ => by simp
          | bucketDeleted bucket => exact bucketDeleted_chosen browser.app h
  | _ => exact update_kept platform surroundings rfl fun _ => Message.noConfusion

theorem withBucketDocumentState_app (kind : BucketDocumentKind)
    (change : BucketDocumentState → BucketDocumentState) :
    (browser.withBucketDocumentState kind change).app = browser.app := by
  cases kind <;> rfl

/-- The documents of the bucket are apart from the application. -/
theorem update_document_app (formats : DocumentFormats) {message : BrowserMessage}
    (h : message.ofDocument = true) :
    (browser.update platform formats surroundings message).1.app = browser.app := by
  have hsame : ∀ kind change, (browser.withBucketDocumentState kind change).app = browser.app :=
    fun kind change => withBucketDocumentState_app kind change
  cases message with
  | bucketDocumentLoaded kind _ | cancelBucketDocumentEditor kind | bucketDocumentEdited kind _ =>
      exact hsame kind _
  | openBucketDocumentEditor kind =>
      exact (withBucketDocumentState_app .lifecycle _).trans (hsame .policy _)
  | saveBucketDocument kind =>
      simp only [Browser.update, Browser.handleSaveBucketDocument]
      split
      next => rfl
      next =>
        split
        next => exact hsame kind _
        next =>
          split
          next => exact hsame kind _
          next => exact hsame kind _
  | bucketDocumentSaved kind result =>
      simp only [Browser.update, Browser.handleBucketDocumentSaved]
      split
      next => exact hsame kind _
      next => exact hsame kind _
  | bucketDocumentDeleted kind result =>
      simp only [Browser.update, Browser.handleBucketDocumentDeleted]
      split
      next => exact hsame kind _
      next => exact hsame kind _
  | _ => cases h

/-- What is connected, and the selection. -/
def App.standing (app : App) : (S3Client × Str × Option Str) × Selection :=
  (app.link, app.selection)

/-- The end of a heal writes its result beside them. -/
theorem handleHealObjectFinished_standing (object : ObjectId)
    (result : Except String HealResponse) :
    (browser.handleHealObjectFinished object result).1.app.standing = browser.app.standing := by
  unfold Browser.handleHealObjectFinished
  by_cases hhealing : browser.healingTarget = some object
  · simp only [hhealing, if_true]
    split
    next => rfl
    next => cases result <;> rfl
  · simp only [hhealing, if_false]
    split
    next => rfl
    next => cases result <;> rfl

/-- The browser leaves both where its own message neither clears the object nor tells of a
bucket that was created. -/
theorem browser_update_standing (formats : DocumentFormats) {message : BrowserMessage}
    (hown : ∀ handed, message ≠ .app handed)
    (h : browser.clearsObject surroundings message = false)
    (hcreated : ∀ bucket, message ≠ .createBucketDone bucket (.ok ())) :
    (browser.update platform formats surroundings message).1.app.standing =
      browser.app.standing := by
  cases message with
  | app message => exact absurd rfl (hown message)
  | selectBucket _ | navigatePrefix _ | selectObject _ | clearSelection => cases h
  | createBucketDone bucket result =>
      cases result with
      | error e => rfl
      | ok _ => exact absurd rfl (hcreated bucket)
  | deleteDone result =>
      cases result with
      | error e => rfl
      | ok _ => cases h
  | uploadDone result | bucketTagsSaved result => cases result <;> rfl
  | find =>
      simp only [Browser.update]
      rcases handleFind_cases browser with hfind | ⟨_, hfind⟩
      · rw [hfind]
      · rw [hfind]
  | upload file =>
      simp only [Browser.update, Browser.handleUpload]
      split <;> rfl
  | createBucket =>
      simp only [Browser.update, Browser.handleCreateBucket]
      split <;> rfl
  | deleteVersion versionId =>
      simp only [Browser.update, Browser.handleDeleteVersion]
      split <;> rfl
  | restoreVersion versionId =>
      simp only [Browser.update, Browser.handleRestoreVersion]
      split <;> rfl
  | versionDeleted result =>
      simp only [Browser.update, Browser.handleVersionDeleted]
      split
      next => split <;> rfl
      next => rfl
  | versionRestored result =>
      simp only [Browser.update, Browser.handleVersionRestored]
      split
      next => split <;> rfl
      next => rfl
  | tagsSaved result =>
      simp only [Browser.update, Browser.handleTagsSaved]
      split
      next => split <;> rfl
      next => rfl
  | addTag =>
      simp only [Browser.update, Browser.handleAddTag]
      split
      next => rfl
      next => split <;> rfl
  | addBucketTag =>
      simp only [Browser.update, Browser.handleAddBucketTag]
      split <;> rfl
  | bucketDocumentLoaded _ _ | openBucketDocumentEditor _ | cancelBucketDocumentEditor _
  | bucketDocumentEdited _ _ | saveBucketDocument _ | bucketDocumentSaved _ _
  | bucketDocumentDeleted _ _ =>
      rw [update_document_app platform surroundings formats rfl]
  | objectInspectLoaded object result =>
      simp only [Browser.update, Browser.handleObjectInspectLoaded]
      split <;> rfl
  | refreshObjectInspect =>
      simp only [Browser.update, Browser.handleRefreshObjectInspect]
      split
      next => rfl
      next => split <;> rfl
  | openHealConfirm =>
      simp only [Browser.update, Browser.handleOpenHealConfirm]
      split
      next => rfl
      next => split <;> rfl
  | confirmHealObject =>
      simp only [Browser.update, Browser.handleConfirmHealObject]
      split <;> rfl
  | healObjectFinished object result => exact handleHealObjectFinished_standing object result
  | _ => rfl

/-- The browser leaves the choice where its message neither clears it nor tells of a
bucket that was created. -/
theorem browser_update_chosen (formats : DocumentFormats) {message : BrowserMessage}
    (h : browser.clearsObject surroundings message = false)
    (hcreated : ∀ bucket, message ≠ .createBucketDone bucket (.ok ())) :
    (browser.update platform formats surroundings message).1.app.chosen =
      browser.app.chosen := by
  by_cases happ : ∃ handed, message = .app handed
  · obtain ⟨handed, rfl⟩ := happ
    show (browser.updateApp platform surroundings handed).1.app.chosen = _
    rw [updateApp_app]
    exact update_chosen platform surroundings h
  · exact congrArg (fun standing => (standing.1.1.endpoint, standing.2))
      (browser_update_standing platform surroundings formats
        (fun handed heq => happ ⟨handed, heq⟩) h hcreated)

/-- The browser changes what is connected only by what it hands on. -/
theorem browser_update_link (formats : DocumentFormats) {message : BrowserMessage}
    (hown : ∀ handed, message ≠ .app handed) :
    (browser.update platform formats surroundings message).1.app.link = browser.app.link := by
  cases hclears : browser.clearsObject surroundings message with
  | false =>
      by_cases hcreated : ∃ bucket, message = .createBucketDone bucket (.ok ())
      · obtain ⟨bucket, rfl⟩ := hcreated
        rfl
      · exact congrArg Prod.fst (browser_update_standing platform surroundings formats hown
          hclears fun bucket heq => hcreated ⟨bucket, heq⟩)
  | true =>
      cases message with
      | app message => exact absurd rfl (hown message)
      | selectObject key =>
          simp only [Browser.update, Browser.handleSelectObject]
          split <;> rfl
      | selectBucket _ | navigatePrefix _ | clearSelection => rfl
      | deleteDone result =>
          cases result with
          | error e => rfl
          | ok _ => rfl
      | _ => cases hclears

/-- What is shown for the client stays right. -/
theorem browser_update_linked (formats : DocumentFormats) (h : browser.app.Linked)
    (message : BrowserMessage) :
    (browser.update platform formats surroundings message).1.app.Linked := by
  by_cases happ : ∃ handed, message = .app handed
  · obtain ⟨handed, rfl⟩ := happ
    show (browser.updateApp platform surroundings handed).1.app.Linked
    rw [updateApp_app]
    exact h.update platform surroundings handed
  · exact h.of_link (browser_update_link platform surroundings formats fun handed heq =>
      happ ⟨handed, heq⟩)

/-- The result of clearing the object that is shown: nothing of the object. -/
def Browser.ShowsNoObject (browser : Browser) : Prop :=
  browser.objectInspect = none ∧ browser.healConfirmTarget = none ∧ browser.objectTags = none ∧
    browser.objectVersions = none ∧ browser.objectPreview = none

/-- The messages that clear the object leave nothing of it. -/
theorem update_clears (formats : DocumentFormats) {message : BrowserMessage}
    (h : browser.clearsObject surroundings message = true) :
    (browser.update platform formats surroundings message).1.ShowsNoObject := by
  have hnone : ∀ browser : Browser, browser.clearObjectAdminState.ShowsNoObject :=
    fun _ => ⟨rfl, rfl, rfl, rfl, rfl⟩
  cases message with
  | app message =>
      cases message with
      | connectTo name =>
          simp only [Browser.clearsObject, App.switchesTo] at h
          simp only [Browser.update, Browser.updateApp, Browser.handleConnectTo]
          cases hfind : browser.app.connections.find? (·.name = name) with
          | none =>
              rw [hfind] at h
              cases h
          | some connection =>
              simp only [hfind] at h
              cases hkeys : surroundings.resolveKeys connection.name with
              | error e =>
                  rw [hkeys] at h
                  cases h
              | ok credentials =>
                  simp only [hkeys, S3Client.new]
                  exact hnone _
      | serverAutoConnect endpoint noAuth =>
          simp only [Browser.clearsObject, App.switchesTo] at h
          simp only [Browser.update, Browser.updateApp, Browser.handleServerAutoConnect]
          cases hrunning : browser.app.serverRunning with
          | false =>
              rw [hrunning] at h
              cases h
          | true => exact hnone _
      | bucketDeleteStepFinished result =>
          cases result with
          | error e => cases h
          | ok finished =>
              cases finished with
              | objectDeleted label => cases h
              | bucketDeleted bucket =>
                  obtain ⟨hdelete, hselected⟩ := Bool.and_eq_true_iff.mp h
                  obtain ⟨state, hstate⟩ := Option.isSome_iff_exists.mp hdelete
                  simp only [Browser.update, Browser.updateApp,
                    Browser.handleBucketDeleteStepFinished, hstate]
                  rw [if_pos (of_decide_eq_true hselected)]
                  exact hnone _
      | _ => cases h
  | selectObject key =>
      simp only [Browser.update, Browser.handleSelectObject]
      split <;> exact ⟨rfl, rfl, rfl, rfl, rfl⟩
  | selectBucket _ | navigatePrefix _ | clearSelection => exact ⟨rfl, rfl, rfl, rfl, rfl⟩
  | deleteDone result =>
      cases result with
      | error e => cases h
      | ok _ => exact ⟨rfl, rfl, rfl, rfl, rfl⟩
  | _ => cases h

/-! ## Where the choice goes -/

/-- The server that a message of the browser connects to. -/
def Browser.switchesTo (surroundings : Surroundings) (browser : Browser) :
    BrowserMessage → Option Str
  | .app message => browser.app.switchesTo surroundings message
  | _ => none

/-- The endpoint that a message of the browser gets shown. -/
def Browser.shownAfter (surroundings : Surroundings) (browser : Browser) :
    BrowserMessage → Option Str
  | .app message => browser.app.shownAfter surroundings message
  | _ => none

theorem browser_update_shown (formats : DocumentFormats) (message : BrowserMessage) :
    (browser.update platform formats surroundings message).1.app.endpoint =
      (browser.shownAfter surroundings message).getD browser.app.endpoint := by
  by_cases happ : ∃ handed, message = .app handed
  · obtain ⟨handed, rfl⟩ := happ
    show (browser.updateApp platform surroundings handed).1.app.endpoint = _
    rw [updateApp_app]
    exact update_endpoint platform surroundings handed
  · have hnone : browser.shownAfter surroundings message = none := by
      cases message with
      | app handed => exact absurd ⟨handed, rfl⟩ happ
      | _ => rfl
    rw [hnone]
    exact congrArg (fun link => link.2.1) (browser_update_link platform surroundings formats
      fun handed heq => happ ⟨handed, heq⟩)

theorem handleSelectObject_chosen (key : Str) :
    (browser.handleSelectObject key).1.app.chosen =
      (browser.app.client.endpoint, .object (browser.app.selectedBucket.getD []) key) := by
  unfold Browser.handleSelectObject
  simp only
  split <;> rfl

/-- The server changes where a message connects to one. -/
theorem browser_update_endpoint (formats : DocumentFormats) (message : BrowserMessage) :
    (browser.update platform formats surroundings message).1.app.client.endpoint =
      (browser.switchesTo surroundings message).getD browser.app.client.endpoint := by
  cases message with
  | app message =>
      show (browser.updateApp platform surroundings message).1.app.client.endpoint = _
      rw [updateApp_app]
      exact update_client platform surroundings browser.app message
  | selectBucket _ | navigatePrefix _ | clearSelection => rfl
  | selectObject key => exact congrArg Prod.fst (handleSelectObject_chosen key)
  | deleteDone result | createBucketDone _ result => cases result <;> rfl
  | _ =>
      exact congrArg Prod.fst (browser_update_chosen platform surroundings formats rfl
        fun _ => BrowserMessage.noConfusion)

/-- A message of the application that clears the object selects nothing. -/
theorem update_clears_selection {message : Message}
    (h : browser.clearsObject surroundings (.app message) = true) :
    (browser.app.update platform surroundings message).1.selection = .none := by
  cases message with
  | connectTo name =>
      simp only [Browser.clearsObject, App.switchesTo] at h
      simp only [App.update, handleConnectTo]
      cases hfind : browser.app.connections.find? (·.name = name) with
      | none =>
          rw [hfind] at h
          cases h
      | some connection =>
          simp only [hfind] at h
          cases hkeys : surroundings.resolveKeys connection.name with
          | error e =>
              rw [hkeys] at h
              cases h
          | ok credentials =>
              simp only [hkeys]
              rfl
  | serverAutoConnect endpoint noAuth =>
      simp only [Browser.clearsObject, App.switchesTo] at h
      simp only [App.update, handleServerAutoConnect]
      cases hrunning : browser.app.serverRunning with
      | false =>
          rw [hrunning] at h
          cases h
      | true => rfl
  | bucketDeleteStepFinished result =>
      cases result with
      | error e => cases h
      | ok finished =>
          cases finished with
          | objectDeleted label => cases h
          | bucketDeleted bucket =>
              obtain ⟨hdelete, hselected⟩ := Bool.and_eq_true_iff.mp h
              obtain ⟨state, hstate⟩ := Option.isSome_iff_exists.mp hdelete
              simp only [App.update, handleBucketDeleteStepFinished, hstate]
              rw [if_pos (of_decide_eq_true hselected)]
              rfl
  | _ => cases h

/-- A message that clears nothing connects to no server. -/
theorem switchesTo_of_not_clears {message : BrowserMessage}
    (h : browser.clearsObject surroundings message = false) :
    browser.switchesTo surroundings message = none := by
  cases message with
  | app message =>
      cases message with
      | connectTo _ | serverAutoConnect _ _ =>
          exact Option.not_isSome_iff_eq_none.mp (Bool.eq_false_iff.mp h)
      | _ => rfl
  | _ => rfl

/-- A bucket is selected because it was selected or created just now, or because it was
selected before and the server stayed. -/
theorem browser_update_bucket (formats : DocumentFormats) {message : BrowserMessage} {name : Str}
    (h : (browser.update platform formats surroundings message).1.app.selection =
      .bucket name) :
    message = .selectBucket name ∨ message = .createBucketDone name (.ok ()) ∨
      (browser.app.selection = .bucket name ∧
        browser.switchesTo surroundings message = none) := by
  have hkept : browser.clearsObject surroundings message = false →
      (∀ bucket, message ≠ .createBucketDone bucket (.ok ())) →
      browser.app.selection = .bucket name ∧
        browser.switchesTo surroundings message = none := by
    intro hclears hcreated
    have hchosen := browser_update_chosen platform surroundings formats hclears hcreated
    exact ⟨(congrArg Prod.snd hchosen).symm.trans h, switchesTo_of_not_clears surroundings hclears⟩
  cases message with
  | app message =>
      right
      right
      apply hkept
      · by_contra hclears
        have hnone := update_clears_selection platform surroundings (by simpa using hclears)
        change (browser.updateApp platform surroundings message).1.app.selection = _ at h
        rw [updateApp_app, hnone] at h
        cases h
      · exact fun _ => BrowserMessage.noConfusion
  | selectBucket selected =>
      left
      exact congrArg BrowserMessage.selectBucket (Selection.bucket.inj h)
  | createBucketDone bucket result =>
      right
      cases result with
      | error e => exact .inr (hkept rfl fun _ => by simp)
      | ok _ =>
          left
          exact congrArg (BrowserMessage.createBucketDone · (.ok ())) (Selection.bucket.inj h)
  | navigatePrefix _ | clearSelection => cases h
  | selectObject key =>
      have hobject := (congrArg Prod.snd (@handleSelectObject_chosen browser key)).symm
      cases hobject.trans h
  | deleteDone result =>
      cases result with
      | error e => exact .inr (.inr (hkept rfl fun _ => BrowserMessage.noConfusion))
      | ok _ => cases h
  | _ => exact .inr (.inr (hkept rfl fun _ => BrowserMessage.noConfusion))

end Chosen

end AbixioUi
