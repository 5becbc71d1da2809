import AbixioUi.Browse.Frames

/-! # Results of the selected object

Seven requests are started for a selection, and only the inspection checks, when its
result arrives, that the selection is still the same. What is shown belongs to what is
selected as long as no other result arrives late.
-/

namespace AbixioUi

open Foundation

/-! ## The property -/

/-- Everything the panel shows answers a request made for the object. -/
structure Browser.PanelOf (browser : Browser) (object : ObjectId) : Prop where
  detail : browser.loadingDetail = false →
    ∀ result, browser.detail = some result → result.asked = object
  tags : ∀ result, browser.objectTags = some result → result.asked.target = .object object
  versions : ∀ result, browser.objectVersions = some result → result.asked = object
  preview : ∀ result, browser.objectPreview = some result → result.asked = object
  inspect : ∀ result, browser.objectInspect = some result → result.asked = object

/-- The request that lists what is selected now. -/
def Browser.Lists (browser : Browser) (request : ListingRequest) : Prop :=
  browser.app.selectedBucket = some request.bucket ∧
    browser.app.currentPrefix = request.keyPrefix

structure Browser.ShowsSelected (browser : Browser) : Prop where
  panel : ∀ object, browser.app.currentSelectedObject = some object → browser.PanelOf object
  objects : browser.app.loadingObjects = false →
    ∀ result, browser.objects = some result → browser.Lists result.asked

/-- The result is of the selected object, if one is selected. -/
def Browser.Awaits (browser : Browser) (isOf : ObjectId → Prop) : Prop :=
  ∀ selected, browser.app.currentSelectedObject = some selected → isOf selected

/-- A result of the panel is of the selected object, and a listing of the selected
bucket and prefix. -/
def BrowserMessage.Due (browser : Browser) : BrowserMessage → Prop
  | .detailLoaded result => browser.Awaits (result.asked = ·)
  | .tagsLoaded result => browser.Awaits (result.asked.target = .object ·)
  | .versionsLoaded result => browser.Awaits (result.asked = ·)
  | .previewLoaded result => browser.Awaits (result.asked = ·)
  | .objectsLoaded result => browser.Lists result.asked
  | _ => True

/-- The results that arrive are of what is selected when they arrive. -/
def BrowserWorld.ResultsDue (world : BrowserWorld) (event : BrowserEvent) : Prop :=
  ∀ surroundings message, world.received event = some (surroundings, message) →
    message.Due world.browser

/-! ## Frames of what is shown -/

section Shown

variable {browser browser' : Browser}

theorem currentSelectedObject_of_place {app app' : App} (h : app'.place = app.place) :
    app'.currentSelectedObject = app.currentSelectedObject := by
  have hselection : app'.selection = app.selection := congrArg BrowsedPlace.selection h
  simp only [App.currentSelectedObject, hselection]

theorem Browser.PanelOf.of_panel {object : ObjectId} (h : browser.PanelOf object)
    (hpanel : browser'.panel = browser.panel) : browser'.PanelOf object := by
  have hdetail : browser'.detail = browser.detail := congrArg Panel.detail hpanel
  have hloading : browser'.loadingDetail = browser.loadingDetail :=
    congrArg Panel.loadingDetail hpanel
  have htags : browser'.objectTags = browser.objectTags := congrArg Panel.tags hpanel
  have hversions : browser'.objectVersions = browser.objectVersions :=
    congrArg Panel.versions hpanel
  have hpreview : browser'.objectPreview = browser.objectPreview :=
    congrArg Panel.preview hpanel
  have hinspect : browser'.objectInspect = browser.objectInspect :=
    congrArg Panel.inspect hpanel
  constructor
  · rw [hdetail, hloading]
    exact h.detail
  · rw [htags]
    exact h.tags
  · rw [hversions]
    exact h.versions
  · rw [hpreview]
    exact h.preview
  · rw [hinspect]
    exact h.inspect

theorem Browser.Lists.of_place {request : ListingRequest} (h : browser.Lists request)
    (hplace : browser'.app.place = browser.app.place) : browser'.Lists request :=
  ⟨(congrArg BrowsedPlace.selectedBucket hplace).trans h.1,
    (congrArg BrowsedPlace.currentPrefix hplace).trans h.2⟩

/-- The listing stays right where the place and the listing stay. -/
theorem Browser.ShowsSelected.objects_of_same (h : browser.ShowsSelected)
    (hkeeps : KeepsPlace browser.app browser'.app) (hobjects : browser'.objects = browser.objects)
    (hloading : browser'.app.loadingObjects = false) :
    ∀ result, browser'.objects = some result → browser'.Lists result.asked := by
  intro result hresult
  have hbefore : browser.app.loadingObjects = false := by
    cases hload : browser.app.loadingObjects with
    | false => rfl
    | true => exact absurd (hkeeps.loading hload) (by rw [hloading]; decide)
  exact (h.objects hbefore result (hobjects ▸ hresult)).of_place hkeeps.place_eq

/-- What is shown stays right where nothing of it changes. -/
theorem Browser.ShowsSelected.of_same (h : browser.ShowsSelected)
    (hkeeps : KeepsPlace browser.app browser'.app) (hpanel : browser'.panel = browser.panel)
    (hobjects : browser'.objects = browser.objects) : browser'.ShowsSelected where
  panel := by
    intro object hobject
    rw [currentSelectedObject_of_place hkeeps.place_eq] at hobject
    exact (h.panel object hobject).of_panel hpanel
  objects := h.objects_of_same hkeeps hobjects

/-- Where no object is selected and the listing is not there yet, nothing is shown. -/
theorem Browser.ShowsSelected.of_unselected
    (hselection : browser.app.currentSelectedObject = none)
    (hobjects : browser.app.loadingObjects = true ∨ browser.objects = none) :
    browser.ShowsSelected where
  panel := by
    intro object hobject
    rw [hselection] at hobject
    cases hobject
  objects := by
    intro hloading result hresult
    rcases hobjects with h | h
    · rw [h] at hloading
      cases hloading
    · rw [h] at hresult
      cases hresult

/-- A panel that holds no result but a detail that is loading. -/
theorem Browser.PanelOf.of_loading {object : ObjectId} (hloading : browser.loadingDetail = true)
    (htags : browser.objectTags = none) (hversions : browser.objectVersions = none)
    (hpreview : browser.objectPreview = none) (hinspect : browser.objectInspect = none) :
    browser.PanelOf object where
  detail := by
    intro h
    rw [hloading] at h
    cases h
  tags := by simp [htags]
  versions := by simp [hversions]
  preview := by simp [hpreview]
  inspect := by simp [hinspect]

end Shown

/-! ## Handlers -/

section Handlers

variable {browser : Browser}

theorem loadObjects_shows (h : browser.app.currentSelectedObject = none) :
    browser.loadObjects.1.ShowsSelected :=
  .of_unselected h (.inl rfl)

/-- Connecting selects nothing and drops the listing. -/
theorem handleConnectTo_shows (surroundings : Surroundings) (h : browser.ShowsSelected)
    (name : Str) : (browser.handleConnectTo surroundings name).1.ShowsSelected := by
  unfold Browser.handleConnectTo handleConnectTo
  cases browser.app.connections.find? (·.name = name) with
  | none => exact h.of_same (.of_eq rfl rfl) rfl rfl
  | some connection =>
      cases hkeys : surroundings.resolveKeys connection.name with
      | error e =>
          simp only [hkeys]
          exact h.of_same (.of_eq rfl rfl) rfl rfl
      | ok credentials =>
          simp only [hkeys, S3Client.new]
          exact .of_unselected rfl (.inr rfl)

theorem handleServerAutoConnect_shows (h : browser.ShowsSelected) (endpoint : Str)
    (noAuth : Bool) : (browser.handleServerAutoConnect endpoint noAuth).1.ShowsSelected := by
  unfold Browser.handleServerAutoConnect handleServerAutoConnect
  by_cases hrunning : browser.app.serverRunning = true
  · simp only [hrunning, if_true, S3Client.new]
    exact .of_unselected rfl (.inr rfl)
  · simp only [hrunning]
    exact h

theorem handleBucketDeleteStepFinished_shows (h : browser.ShowsSelected)
    (result : Except String BucketDeleteStepResult) :
    (browser.handleBucketDeleteStepFinished result).1.ShowsSelected := by
  unfold Browser.handleBucketDeleteStepFinished
  have hkept : (∀ bucket, result ≠ .ok (.bucketDeleted bucket)) →
      (browser.withApp
        (handleBucketDeleteStepFinished browser.app result)).1.ShowsSelected := fun hne =>
    h.of_same (handleBucketDeleteStepFinished_keepsPlace browser.app hne) rfl rfl
  match hdelete : browser.app.bucketDelete, result with
  | none, .ok (.bucketDeleted bucket) =>
      refine h.of_same ?_ rfl rfl
      simp only [Browser.withApp, handleBucketDeleteStepFinished, hdelete]
      exact .of_eq rfl rfl
  | none, .ok (.objectDeleted label) => exact hkept fun _ => by simp
  | none, .error error => exact hkept fun _ => by simp
  | some state, .ok (.objectDeleted label) => exact hkept fun _ => by simp
  | some state, .error error => exact hkept fun _ => by simp
  | some state, .ok (.bucketDeleted bucket) =>
      simp only [Browser.withApp, handleBucketDeleteStepFinished, hdelete]
      by_cases hselected : browser.app.selectedBucket = some bucket
      · simp only [hselected, if_true]
        exact .of_unselected rfl (.inr rfl)
      · simp only [hselected, if_false]
        exact h.of_same (.of_eq rfl rfl) rfl rfl

theorem updateApp_shows (platform : Platform) (surroundings : Surroundings)
    (h : browser.ShowsSelected) (message : Message) :
    (browser.updateApp platform surroundings message).1.ShowsSelected := by
  have hkept : message.connects = false →
      (∀ bucket, message ≠ .bucketDeleteStepFinished (.ok (.bucketDeleted bucket))) →
      (browser.withApp
        (browser.app.update platform surroundings message)).1.ShowsSelected :=
    fun hconnects hdeleted =>
      h.of_same (update_keepsPlace browser.app platform surroundings hconnects hdeleted) rfl rfl
  cases message with
  | connectTo name => exact handleConnectTo_shows surroundings h name
  | serverAutoConnect endpoint noAuth => exact handleServerAutoConnect_shows h endpoint noAuth
  | bucketDeleteStepFinished result => exact handleBucketDeleteStepFinished_shows h result
  | _ => exact hkept rfl fun _ => Message.noConfusion

theorem handleSelectObject_shows (h : browser.ShowsSelected) (key : Str) :
    (browser.handleSelectObject key).1.ShowsSelected := by
  unfold Browser.handleSelectObject
  simp only
  split
  next =>
    exact ⟨fun _ _ => .of_loading rfl rfl rfl rfl rfl, fun hloading result hresult =>
      h.objects hloading result hresult⟩
  next =>
    exact ⟨fun _ _ => .of_loading rfl rfl rfl rfl rfl, fun hloading result hresult =>
      h.objects hloading result hresult⟩

theorem handleClearSelection_shows (h : browser.ShowsSelected) :
    browser.handleClearSelection.1.ShowsSelected where
  panel := by
    intro object hobject
    cases hobject
  objects := fun hloading result hresult => h.objects hloading result hresult

/-- A listing is shown at once. -/
theorem handleObjectsLoaded_shows_iff (h : browser.ShowsSelected)
    (result : Traced ListingRequest (Except String ListObjectsResult)) :
    (browser.handleObjectsLoaded result).1.ShowsSelected ↔ browser.Lists result.asked := by
  constructor
  · intro hafter
    exact hafter.objects rfl result rfl
  · intro hdue
    refine ⟨fun object hobject => (h.panel object hobject).of_panel rfl, ?_⟩
    intro _ shown hshown
    obtain rfl := Option.some.inj hshown
    exact hdue

/-- A result of the panel is shown at once, whatever is selected. -/
theorem panelResult_shows_iff (h : browser.ShowsSelected) {after : Browser} {isOf : ObjectId → Prop}
    (hplace : KeepsPlace browser.app after.app) (hobjects : after.objects = browser.objects)
    (hpanel : ∀ object, browser.PanelOf object → (after.PanelOf object ↔ isOf object)) :
    after.ShowsSelected ↔ browser.Awaits isOf := by
  constructor
  · intro hafter object hobject
    have hobject' := (currentSelectedObject_of_place hplace.place_eq).trans hobject
    exact (hpanel object (h.panel object hobject)).mp (hafter.panel object hobject')
  · intro hdue
    refine ⟨fun object hobject => ?_, h.objects_of_same hplace hobjects⟩
    rw [currentSelectedObject_of_place hplace.place_eq] at hobject
    exact (hpanel object (h.panel object hobject)).mpr (hdue object hobject)

theorem handleDetailLoaded_shows_iff (h : browser.ShowsSelected)
    (result : Traced ObjectId (Except String ObjectDetail)) :
    (browser.handleDetailLoaded result).1.ShowsSelected ↔
      browser.Awaits (result.asked = ·) := by
  refine panelResult_shows_iff h (.of_eq rfl rfl) rfl fun object hpanel => ⟨?_, ?_⟩
  · intro hafter
    exact hafter.detail rfl result rfl
  · intro hdue
    refine ⟨fun _ shown hshown => ?_, hpanel.tags, hpanel.versions, hpanel.preview,
      hpanel.inspect⟩
    exact Option.some.inj hshown ▸ hdue

theorem handleTagsLoaded_shows_iff (h : browser.ShowsSelected)
    (result : Traced TagRead (Except String Tags)) :
    (browser.handleTagsLoaded result).1.ShowsSelected ↔
      browser.Awaits (result.asked.target = .object ·) := by
  refine panelResult_shows_iff h (.of_eq rfl rfl) rfl fun object hpanel => ⟨?_, ?_⟩
  · intro hafter
    exact hafter.tags result rfl
  · intro hdue
    refine ⟨hpanel.detail, fun shown hshown => ?_, hpanel.versions, hpanel.preview,
      hpanel.inspect⟩
    exact Option.some.inj hshown ▸ hdue

theorem handleVersionsLoaded_shows_iff (h : browser.ShowsSelected)
    (result : Traced ObjectId (Except String (List VersionInfo))) :
    (browser.handleVersionsLoaded result).1.ShowsSelected ↔
      browser.Awaits (result.asked = ·) := by
  refine panelResult_shows_iff h (.of_eq rfl rfl) rfl fun object hpanel => ⟨?_, ?_⟩
  · intro hafter
    exact hafter.versions result rfl
  · intro hdue
    refine ⟨hpanel.detail, hpanel.tags, fun shown hshown => ?_, hpanel.preview,
      hpanel.inspect⟩
    exact Option.some.inj hshown ▸ hdue

theorem handlePreviewLoaded_shows_iff (h : browser.ShowsSelected)
    (result : Traced ObjectId (Except String Str)) :
    (browser.handlePreviewLoaded result).1.ShowsSelected ↔
      browser.Awaits (result.asked = ·) := by
  refine panelResult_shows_iff h (.of_eq rfl rfl) rfl fun object hpanel => ⟨?_, ?_⟩
  · intro hafter
    exact hafter.preview result rfl
  · intro hdue
    refine ⟨hpanel.detail, hpanel.tags, hpanel.versions, fun shown hshown => ?_,
      hpanel.inspect⟩
    exact Option.some.inj hshown ▸ hdue

/-- The inspection is dropped where another object is selected. -/
theorem handleObjectInspectLoaded_shows (h : browser.ShowsSelected) {object : ObjectId}
    {result : Traced ObjectId (Except String ObjectInspectResponse)}
    (hasked : result.asked = object) :
    (browser.handleObjectInspectLoaded object result).1.ShowsSelected := by
  unfold Browser.handleObjectInspectLoaded
  by_cases hselected : browser.app.currentSelectedObject = some object
  · simp only [hselected, ne_eq, not_true_eq_false, if_false]
    refine ⟨fun selected hobject => ?_, h.objects_of_same (.of_eq rfl rfl) rfl⟩
    obtain rfl : object = selected := Option.some.inj (hselected.symm.trans hobject)
    have hpanel := h.panel object hselected
    refine ⟨hpanel.detail, hpanel.tags, hpanel.versions, hpanel.preview,
      fun shown hshown => ?_⟩
    exact Option.some.inj hshown ▸ hasked
  · simp only [hselected, ne_eq, not_false_eq_true, if_true]
    exact h

/-! ## Messages -/

theorem Browser.ShowsSelected.of_screen {after : Browser} (h : browser.ShowsSelected)
    (hscreen : after.screen = browser.screen) : after.ShowsSelected :=
  h.of_same (keepsPlace_of_screen hscreen) (congrArg Screen.panel hscreen)
    (congrArg Screen.objects hscreen)

/-- One message keeps the panel and the listing right exactly where its result is due. -/
theorem update_shows_iff (platform : Platform) (formats : DocumentFormats)
    (surroundings : Surroundings) (h : browser.ShowsSelected) {message : BrowserMessage}
    (hnamed : ∀ object result, message = .objectInspectLoaded object result →
      result.asked = object) :
    (browser.update platform formats surroundings message).1.ShowsSelected ↔
      message.Due browser := by
  cases message with
  | app message => exact iff_of_true (updateApp_shows platform surroundings h message) trivial
  | selectBucket name => exact iff_of_true (.of_unselected rfl (.inl rfl)) trivial
  | navigatePrefix keyPrefix => exact iff_of_true (loadObjects_shows rfl) trivial
  | selectObject key => exact iff_of_true (handleSelectObject_shows h key) trivial
  | clearSelection => exact iff_of_true (handleClearSelection_shows h) trivial
  | createBucketDone bucket result =>
      refine iff_of_true ?_ trivial
      cases result with
      | error e => exact h.of_same (.of_eq rfl rfl) rfl rfl
      | ok _ => exact .of_unselected rfl (.inl rfl)
  | deleteDone result =>
      refine iff_of_true ?_ trivial
      cases result with
      | error e => exact h.of_same (.of_eq rfl rfl) rfl rfl
      | ok _ => exact loadObjects_shows rfl
  | objectsLoaded result => exact handleObjectsLoaded_shows_iff h result
  | detailLoaded result => exact handleDetailLoaded_shows_iff h result
  | tagsLoaded result => exact handleTagsLoaded_shows_iff h result
  | versionsLoaded result => exact handleVersionsLoaded_shows_iff h result
  | previewLoaded result => exact handlePreviewLoaded_shows_iff h result
  | objectInspectLoaded object result =>
      exact iff_of_true (handleObjectInspectLoaded_shows h (hnamed object result rfl)) trivial
  | refresh => exact iff_of_true (h.of_same ⟨rfl, fun _ => rfl⟩ rfl rfl) trivial
  | uploadDone result =>
      refine iff_of_true ?_ trivial
      cases result with
      | error e => exact h.of_same (.of_eq rfl rfl) rfl rfl
      | ok _ => exact h.of_same ⟨rfl, fun _ => rfl⟩ rfl rfl
  | find =>
      refine iff_of_true ?_ trivial
      simp only [Browser.update]
      rcases handleFind_cases browser with hfind | ⟨_, hfind⟩
      · rw [hfind]
        exact h
      · rw [hfind]
        exact h.of_same (.of_eq rfl rfl) rfl rfl
  | findComplete _ | clearFind | toggleObjectSelected _ | selectAllObjects
  | clearObjectSelection => exact iff_of_true (h.of_same (.of_eq rfl rfl) rfl rfl) trivial
  | bucketDocumentLoaded _ _ | openBucketDocumentEditor _ | cancelBucketDocumentEditor _
  | bucketDocumentEdited _ _ | saveBucketDocument _ | bucketDocumentSaved _ _
  | bucketDocumentDeleted _ _ =>
      exact iff_of_true
        (h.of_screen (update_document_screen platform formats surroundings browser rfl).1) trivial
  | addTag | removeTag _ | addBucketTag | removeBucketTag _ =>
      exact iff_of_true
        (h.of_screen (update_edit_screen platform formats surroundings browser rfl).1) trivial
  | bucketTagsLoaded result => exact iff_of_true (h.of_same (.of_eq rfl rfl) rfl rfl) trivial
  | _ =>
      exact iff_of_true
        (h.of_screen (update_keepsScreen platform formats surroundings browser rfl).screen_eq)
        trivial

end Handlers

/-! ## Runs -/

section Runs

variable {world : BrowserWorld}

/-- An inspection is delivered under the name of the object it was asked for. -/
theorem received_objectInspect {event : BrowserEvent} {surroundings : Surroundings}
    {object : ObjectId} {result : Traced ObjectId (Except String ObjectInspectResponse)}
    (h : world.received event = some (surroundings, .objectInspectLoaded object result)) :
    result.asked = object := by
  obtain ⟨index, replies, request, -, -, hmessage⟩ := received_result h rfl
  unfold BrowserRequest.message at hmessage
  split at hmessage
  case h_3 => simp at hmessage
  case h_5 => split at hmessage <;> simp at hmessage
  case h_7 =>
    obtain ⟨rfl, rfl⟩ : _ ∧ _ := by simpa using hmessage
    rfl
  all_goals cases hmessage

theorem step_shows_iff (platform : Platform) (formats : DocumentFormats)
    (h : world.browser.ShowsSelected) (event : BrowserEvent) :
    (world.step platform formats event).browser.ShowsSelected ↔ world.ResultsDue event := by
  rw [step_browser]
  unfold BrowserWorld.handle
  cases hreceived : world.received event with
  | none =>
      refine iff_of_true h ?_
      intro surroundings message hmessage
      rw [hreceived] at hmessage
      cases hmessage
  | some pair =>
      obtain ⟨surroundings, message⟩ := pair
      refine (update_shows_iff platform formats surroundings h ?_).trans ⟨?_, ?_⟩
      · rintro object result rfl
        exact received_objectInspect hreceived
      · intro hdue surroundings' message' hmessage
        obtain ⟨rfl, rfl⟩ := Prod.mk.inj (Option.some.inj (hreceived.symm.trans hmessage))
        exact hdue
      · intro hdue
        exact hdue surroundings message hreceived

theorem start_shows (connections : List Connection) (serverConfig : ServerConfig)
    (startup : StartupOptions) (server : TagStore) :
    (BrowserWorld.start connections serverConfig startup server).browser.ShowsSelected := by
  simp only [BrowserWorld.start, issueAll_browser]
  exact .of_unselected rfl (.inr rfl)

/-- In every state of a run the panel shows results of the selected object, and the
listing is that of the selected bucket and prefix, exactly if no result of something
else arrives. -/
theorem shows_selected_iff (platform : Platform) (formats : DocumentFormats)
    (connections : List Connection) (serverConfig : ServerConfig) (startup : StartupOptions)
    (server : TagStore) (events : List BrowserEvent) :
    (∀ earlier, earlier <+: events →
      (run (BrowserWorld.step platform formats)
        (BrowserWorld.start connections serverConfig startup server)
        earlier).browser.ShowsSelected) ↔
      Along (BrowserWorld.step platform formats) BrowserWorld.ResultsDue
        (BrowserWorld.start connections serverConfig startup server) events := by
  exact forall_prefix_iff_along (fun _ => True)
    (fun world : BrowserWorld => world.browser.ShowsSelected) (fun _ _ _ _ => trivial)
    (fun _ event _ _ h => step_shows_iff platform formats h event) trivial
    (start_shows connections serverConfig startup server) (along_true _ _)

end Runs

/-! ## A late detail -/

/-- No document can be read. -/
def unreadable : DocumentFormats where
  Json := Empty
  jsonFromStr := fun _ => .error "unreadable"
  jsonToStringPretty := fun json => json.elim
  xml :=
    { toXmlString := fun _ => .error "unreadable"
      fromXmlStr := fun _ => .error "unreadable"
      from_to := by
        intro xml text h
        cases h }

/-- Empty results that all succeed. -/
def emptyBrowserReplies : BrowserReplies :=
  { emptyReplies with
    listing := .ok ⟨[], [], false⟩
    detail := .ok ⟨[], 0, [], [], [], []⟩
    inspect := .ok ⟨[], [], 0, [], [], 0⟩
    heal := .ok ⟨"healed", none⟩
    versions := .ok []
    preview := .ok []
    document := .ok none
    probed := false }

/-- The browser without an endpoint to connect to, and servers without tags. -/
def unconnectedBrowser : BrowserWorld := .start [] noServer ⟨none, none⟩ fun _ _ => ⟨∅, 0⟩

/-- The user selects one object, then another, and the detail of the first arrives. -/
def lateDetail : List BrowserEvent :=
  [.user calm (.selectBucket "data".toList),
    .user calm (.selectObject "a".toList),
    .user calm (.selectObject "b".toList),
    .deliver calm 4 emptyBrowserReplies]

/-- The second object is selected, and the first one's detail is shown as its own. -/
theorem late_detail_shown :
    ¬ ∀ earlier, earlier <+: lateDetail →
      (run (BrowserWorld.step .unix unreadable) unconnectedBrowser
        earlier).browser.ShowsSelected := by
  intro h
  have hpanel := (h lateDetail List.prefix_rfl).panel ("data".toList, "b".toList) rfl
  have hasked := hpanel.detail rfl _ rfl
  exact absurd hasked (by decide)

end AbixioUi
