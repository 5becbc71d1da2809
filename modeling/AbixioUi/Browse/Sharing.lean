import AbixioUi.Browse.Chosen
import AbixioUi.Foundation.Numerals

/-! # Links to the selected object

A link is made for the object, the server and the expiry that are chosen when it is
asked for, and is stored when it is ready, whatever is chosen then. Clearing the state
of the object closes the modal and drops the link; a created bucket takes the
selection away and leaves both.
-/

namespace AbixioUi

open Foundation

/-! ## The share modal -/

/-- What a link is made for. -/
structure LinkRequest where
  endpoint : Str
  object : ObjectId
  expirySecs : Nat
deriving DecidableEq, Repr

structure ShareState where
  shareModalOpen : Bool
  shareUrl : Option (Traced LinkRequest Str)
  shareExpirySecs : Nat
deriving DecidableEq, Repr

def ShareState.new : ShareState where
  shareModalOpen := false
  shareUrl := none
  shareExpirySecs := 3600

/-- The part of the cleared object state that is about sharing. -/
def ShareState.clear (share : ShareState) : ShareState :=
  { share with shareModalOpen := false, shareUrl := none }

/-- The browser with its share modal, and the links that are being made. -/
structure Sharing where
  world : BrowserWorld
  share : ShareState
  links : List LinkRequest

/-! ## Handlers -/

namespace Sharing

/-- The request for a link to what is chosen. -/
def linkRequest (sharing : Sharing) : Option LinkRequest :=
  match sharing.world.browser.app.selection with
  | .object bucket key =>
      some
        { endpoint := sharing.world.browser.app.client.endpoint
          object := (bucket, key)
          expirySecs := sharing.share.shareExpirySecs }
  | _ => none

def handleOpenShareModal (sharing : Sharing) : Sharing :=
  { sharing with share := { sharing.share with shareModalOpen := true, shareUrl := none } }

def handleCloseShareModal (sharing : Sharing) : Sharing :=
  { sharing with share := { sharing.share with shareModalOpen := false, shareUrl := none } }

/-- The seconds a text stands for; any other text stands for an hour. -/
def expirySecs (text : Str) : Nat := (parseUnsigned 64 text).getD 3600

def handleShareExpiryChanged (sharing : Sharing) (text : Str) : Sharing :=
  { sharing with share := { sharing.share with shareExpirySecs := expirySecs text } }

def handleGenerateShareUrl (sharing : Sharing) : Sharing :=
  { sharing with links := sharing.links ++ sharing.linkRequest.toList }

def handleShareUrlGenerated (sharing : Sharing) (request : LinkRequest)
    (result : Except String Str) : Sharing :=
  match result with
  | .ok url => { sharing with share := { sharing.share with shareUrl := some ⟨url, request⟩ } }
  | .error error =>
      let browser := sharing.world.browser.withError ("presign failed: " ++ error)
      { sharing with world := { sharing.world with browser := browser } }

end Sharing

/-! ## Steps -/

/-- What happens in the browser, what the user does in the modal, and a link that is
ready. -/
inductive SharingEvent
  | browse (event : BrowserEvent)
  | openShareModal
  | closeShareModal
  | shareExpiryChanged (text : Str)
  | generateShareUrl
  | shareUrlGenerated (index : Nat) (result : Except String Str)

namespace Sharing

def browse (platform : Platform) (formats : DocumentFormats) (sharing : Sharing)
    (event : BrowserEvent) : Sharing :=
  { sharing with
    world := sharing.world.step platform formats event
    share := if sharing.world.clearsObject event then sharing.share.clear else sharing.share }

def step (platform : Platform) (formats : DocumentFormats) (sharing : Sharing) :
    SharingEvent → Sharing
  | .browse event => sharing.browse platform formats event
  | .openShareModal => sharing.handleOpenShareModal
  | .closeShareModal => sharing.handleCloseShareModal
  | .shareExpiryChanged text => sharing.handleShareExpiryChanged text
  | .generateShareUrl => sharing.handleGenerateShareUrl
  | .shareUrlGenerated index result =>
      match sharing.links[index]? with
      | some request =>
          { sharing with links := sharing.links.eraseIdx index }.handleShareUrlGenerated
            request result
      | none => sharing

def start (connections : List Connection) (serverConfig : ServerConfig)
    (startup : StartupOptions) (server : TagStore) : Sharing where
  world := .start connections serverConfig startup server
  share := .new
  links := []

/-! ## The property -/

/-- The link in the open modal. -/
def shownLink (sharing : Sharing) : Option (Traced LinkRequest Str) :=
  if sharing.share.shareModalOpen then sharing.share.shareUrl else none

/-- A link that is shown is one to the selected object on the connected server, with
the expiry that is marked. -/
def ShowsOwnLink (sharing : Sharing) : Prop :=
  ∀ link, sharing.shownLink = some link → sharing.linkRequest = some link.asked

/-- The event brings the news of a created bucket. -/
def CreatesBucket (sharing : Sharing) (event : BrowserEvent) : Prop :=
  ∃ surroundings bucket,
    sharing.world.received event = some (surroundings, .createBucketDone bucket (.ok ()))

/-- A link that gets ready in the open modal is one to what is chosen now; while a link
is shown its expiry stays, and no bucket that was created takes the selection. -/
def LinkDue (sharing : Sharing) : SharingEvent → Prop
  | .browse event => sharing.CreatesBucket event → sharing.shownLink = none
  | .shareExpiryChanged text =>
      sharing.shownLink ≠ none → expirySecs text = sharing.share.shareExpirySecs
  | .shareUrlGenerated index (.ok _) =>
      sharing.share.shareModalOpen = true → ∀ request, sharing.links[index]? = some request →
        sharing.linkRequest = some request
  | _ => True

end Sharing

/-! ## Steps and the link -/

namespace Sharing

section Steps

variable (platform : Platform) (formats : DocumentFormats) {sharing after : Sharing}

/-- The request depends on the choice and the expiry alone. -/
theorem linkRequest_congr
    (hchosen : after.world.browser.app.chosen = sharing.world.browser.app.chosen)
    (hexpiry : after.share.shareExpirySecs = sharing.share.shareExpirySecs) :
    after.linkRequest = sharing.linkRequest := by
  obtain ⟨hendpoint, hselection⟩ := Prod.mk.inj hchosen
  unfold linkRequest
  rw [hselection, hendpoint, hexpiry]

theorem linkRequest_of_bucket {bucket : Str}
    (h : sharing.world.browser.app.selection = .bucket bucket) : sharing.linkRequest = none := by
  unfold linkRequest
  rw [h]

/-- The expiry of the request is the one that is marked. -/
theorem linkRequest_expirySecs {request : LinkRequest} (h : sharing.linkRequest = some request) :
    request.expirySecs = sharing.share.shareExpirySecs := by
  unfold linkRequest at h
  split at h
  next => rw [← Option.some.inj h]
  next => cases h

theorem ShowsOwnLink.of_same (h : sharing.ShowsOwnLink)
    (hchosen : after.world.browser.app.chosen = sharing.world.browser.app.chosen)
    (hshare : after.share = sharing.share) : after.ShowsOwnLink := by
  intro link hlink
  have hshown : sharing.shownLink = some link := by
    rw [← hlink]
    simp only [shownLink, hshare]
  rw [linkRequest_congr hchosen (congrArg ShareState.shareExpirySecs hshare)]
  exact h link hshown

theorem showsOwnLink_of_hidden (h : sharing.shownLink = none) : sharing.ShowsOwnLink := by
  intro link hlink
  rw [h] at hlink
  cases hlink

/-- A message that clears the object tells of no bucket that was created. -/
theorem not_createsBucket_of_clears {event : BrowserEvent}
    (h : sharing.world.clearsObject event = true) : ¬ sharing.CreatesBucket event := by
  rintro ⟨surroundings, bucket, hreceived⟩
  unfold BrowserWorld.clearsObject at h
  rw [hreceived] at h
  cases h

/-- An event that neither clears the object nor creates a bucket keeps the choice. -/
theorem step_chosen {event : BrowserEvent} (h : sharing.world.clearsObject event = false)
    (hcreated : ¬ sharing.CreatesBucket event) :
    (sharing.world.step platform formats event).browser.app.chosen =
      sharing.world.browser.app.chosen := by
  rw [step_browser]
  unfold BrowserWorld.handle
  unfold BrowserWorld.clearsObject at h
  cases hreceived : sharing.world.received event with
  | none => rfl
  | some received =>
      rw [hreceived] at h
      apply browser_update_chosen platform received.1 formats h
      intro bucket hmessage
      exact hcreated ⟨received.1, bucket, by rw [hreceived, ← hmessage]⟩

/-- The news of a created bucket selects the bucket. -/
theorem step_createsBucket {event : BrowserEvent} (h : sharing.CreatesBucket event) :
    (sharing.browse platform formats event).linkRequest = none := by
  obtain ⟨surroundings, bucket, hreceived⟩ := h
  have hbrowser : (sharing.world.step platform formats event).browser =
      (sharing.world.browser.handleCreateBucketDone bucket (.ok ())).1 := by
    rw [step_browser]
    unfold BrowserWorld.handle
    rw [hreceived]
    rfl
  apply @linkRequest_of_bucket _ bucket
  show (sharing.world.step platform formats event).browser.app.selection = .bucket bucket
  rw [hbrowser]
  rfl

theorem browse_own_iff (h : sharing.ShowsOwnLink) (event : BrowserEvent) :
    (sharing.browse platform formats event).ShowsOwnLink ↔
      (sharing.CreatesBucket event → sharing.shownLink = none) := by
  by_cases hclears : sharing.world.clearsObject event = true
  · have hhidden : (sharing.browse platform formats event).shownLink = none := by
      simp only [shownLink, browse, hclears]
      rfl
    exact iff_of_true (showsOwnLink_of_hidden hhidden)
      fun hcreates => absurd hcreates (not_createsBucket_of_clears hclears)
  · have hkept : (sharing.browse platform formats event).share = sharing.share := if_neg hclears
    by_cases hcreates : sharing.CreatesBucket event
    · rw [forall_prop_of_true hcreates]
      have hnone := step_createsBucket platform formats hcreates
      have hshown : (sharing.browse platform formats event).shownLink = sharing.shownLink := by
        simp only [shownLink, hkept]
      constructor
      · intro hafter
        rw [← hshown]
        cases hlink : (sharing.browse platform formats event).shownLink with
        | none => rfl
        | some link =>
            have hrequest := hafter link hlink
            rw [hnone] at hrequest
            cases hrequest
      · intro hhidden
        exact showsOwnLink_of_hidden (hshown.trans hhidden)
    · have hchosen := step_chosen platform formats (by simpa using hclears) hcreates
      exact iff_of_true (h.of_same hchosen hkept) fun hyes => absurd hyes hcreates

/-- Another expiry is marked while a link is shown only with the link's own. -/
theorem handleShareExpiryChanged_own_iff (h : sharing.ShowsOwnLink) (text : Str) :
    (sharing.handleShareExpiryChanged text).ShowsOwnLink ↔
      (sharing.shownLink ≠ none → expirySecs text = sharing.share.shareExpirySecs) := by
  cases hlink : sharing.shownLink with
  | none =>
      exact iff_of_true (showsOwnLink_of_hidden hlink) fun hshown => absurd rfl hshown
  | some link =>
      have hrequest := h link hlink
      constructor
      · intro hafter _
        have hnext := hafter link hlink
        exact (linkRequest_expirySecs hnext).symm.trans (linkRequest_expirySecs hrequest)
      · intro hsame
        have hexpiry := hsame (Option.some_ne_none link)
        have hkept : (sharing.handleShareExpiryChanged text).linkRequest = sharing.linkRequest :=
          linkRequest_congr rfl hexpiry
        intro shown hshown
        rw [hkept]
        exact h shown hshown

/-- A link that gets ready is stored, whatever is chosen. -/
theorem handleShareUrlGenerated_own_iff (request : LinkRequest) (url : Str) :
    (sharing.handleShareUrlGenerated request (.ok url)).ShowsOwnLink ↔
      (sharing.share.shareModalOpen = true → sharing.linkRequest = some request) := by
  cases hopen : sharing.share.shareModalOpen with
  | false =>
      refine iff_of_true (showsOwnLink_of_hidden ?_) fun hshut => by cases hshut
      simp only [shownLink, handleShareUrlGenerated, hopen]
      rfl
  | true =>
      have hshown : (sharing.handleShareUrlGenerated request (.ok url)).shownLink =
          some ⟨url, request⟩ := by
        simp only [shownLink, handleShareUrlGenerated, hopen]
        rfl
      constructor
      · intro hafter _
        exact hafter _ hshown
      · intro hdue link hlink
        rw [hshown] at hlink
        obtain rfl := Option.some.inj hlink
        exact hdue rfl

/-- One event keeps the link right exactly if it is due. -/
theorem step_own_iff (h : sharing.ShowsOwnLink) (event : SharingEvent) :
    (sharing.step platform formats event).ShowsOwnLink ↔ sharing.LinkDue event := by
  cases event with
  | browse event => exact browse_own_iff platform formats h event
  | openShareModal | closeShareModal => exact iff_of_true (showsOwnLink_of_hidden rfl) trivial
  | shareExpiryChanged text => exact handleShareExpiryChanged_own_iff h text
  | generateShareUrl => exact iff_of_true (h.of_same rfl rfl) trivial
  | shareUrlGenerated index result =>
      simp only [step]
      cases hat : sharing.links[index]? with
      | none =>
          refine iff_of_true h ?_
          cases result with
          | error e => trivial
          | ok url =>
              intro _ request hrequest
              rw [hat] at hrequest
              cases hrequest
      | some request =>
          have hbefore : ShowsOwnLink { sharing with links := sharing.links.eraseIdx index } :=
            h.of_same rfl rfl
          cases result with
          | error e => exact iff_of_true (hbefore.of_same rfl rfl) trivial
          | ok url =>
              refine (handleShareUrlGenerated_own_iff request url).trans ?_
              constructor
              · intro hdue hopen request' hrequest
                rw [hat] at hrequest
                obtain rfl := Option.some.inj hrequest
                exact hdue hopen
              · intro hdue hopen
                exact hdue hopen request hat

end Steps

/-- In every state of a run the modal shows a link to the selected object on the connected
server, with the expiry that is marked, exactly if every link that gets ready in the open
modal is one to what is chosen then, and while a link is shown no other expiry is marked
and no bucket gets created. -/
theorem shown_link_exact (platform : Platform) (formats : DocumentFormats)
    (connections : List Connection) (serverConfig : ServerConfig) (startup : StartupOptions)
    (server : TagStore) (events : List SharingEvent) :
    (∀ earlier, earlier <+: events →
      (run (step platform formats) (start connections serverConfig startup server)
        earlier).ShowsOwnLink) ↔
      Along (step platform formats) LinkDue (start connections serverConfig startup server)
        events :=
  forall_prefix_iff_along (fun _ => True) ShowsOwnLink (fun _ _ _ _ => trivial)
    (fun _ event _ _ h => step_own_iff platform formats h event) trivial
    (showsOwnLink_of_hidden rfl) (along_true _ _)

/-- The user asks for a link to one object and opens the modal of another one; the link
that was asked for gets ready. -/
def lateLink : List SharingEvent :=
  [.browse (.user calm (.selectBucket "data".toList)),
    .browse (.user calm (.selectObject "a".toList)),
    .openShareModal, .generateShareUrl,
    .browse (.user calm (.selectObject "b".toList)),
    .openShareModal, .shareUrlGenerated 0 (.ok "http://a".toList)]

/-- The link to the first object is shown as one to the second. -/
example :
    let late := run (step .unix unreadable) ⟨unconnectedBrowser, .new, []⟩ lateLink
    late.shownLink.map (·.asked.object) = some ("data".toList, "a".toList) ∧
      late.linkRequest.map (·.object) = some ("data".toList, "b".toList) := by
  decide

end Sharing

end AbixioUi
