import AbixioUi.Browse.Chosen

/-! # Pages about the server and the bucket

The disks, the heal status and the cluster nodes of the server, and the fault tolerance
and the versioning status of the bucket. Each page is filled by whatever answer arrives
last. Connecting drops the first two, selecting a bucket drops the fault tolerance, and
nothing drops the other two. What is held is compared; the views draw the disks, the
healing, the nodes and the fault tolerance of an AbixIO server only.
-/

namespace AbixioUi

open Foundation

/-! ## Pages -/

inductive AdminPage
  | disks
  | healing
  | cluster
  | faultTolerance
  | versioning
deriving DecidableEq, Repr

def AdminPage.ofBucket : AdminPage → Bool
  | .disks | .healing | .cluster => false
  | .faultTolerance | .versioning => true

/-- What a page is asked for: a server, or a bucket on it. -/
structure PageRequest where
  endpoint : Str
  bucket : Option Str
deriving DecidableEq, Repr

/-- The erasure coding of a bucket. -/
structure EcConfig where
  ftt : Nat
deriving DecidableEq, Repr

variable {Disks HealStatus ClusterNodes : Type}

/-- The contents of the pages, each traced to what was asked. No handler looks into the
answers about the server. -/
structure AdminPages (Disks HealStatus ClusterNodes : Type) where
  disksData : Option (Traced PageRequest (Except String Disks))
  healData : Option (Traced PageRequest (Except String HealStatus))
  clusterNodes : Option (Traced PageRequest (Except String ClusterNodes))
  bucketFtt : Option (Traced PageRequest (Except String Nat))
  bucketVersioning : Option (Traced PageRequest (Except String Str))

def AdminPages.empty : AdminPages Disks HealStatus ClusterNodes := ⟨none, none, none, none, none⟩

/-- What the contents of a page were asked for. -/
def AdminPages.asked (pages : AdminPages Disks HealStatus ClusterNodes) :
    AdminPage → Option PageRequest
  | .disks => pages.disksData.map (·.asked)
  | .healing => pages.healData.map (·.asked)
  | .cluster => pages.clusterNodes.map (·.asked)
  | .faultTolerance => pages.bucketFtt.map (·.asked)
  | .versioning => pages.bucketVersioning.map (·.asked)

/-! ## Tasks -/

/-- A task that fills a page, or one that changes the versioning of a bucket. -/
inductive PageTask
  | fetch (page : AdminPage) (request : PageRequest)
  | putVersioning (request : PageRequest) (status : Str)
deriving DecidableEq, Repr

/-- What the server answers to one task. -/
structure PageReplies (Disks HealStatus ClusterNodes : Type) where
  disks : Except String Disks
  healStatus : Except String HealStatus
  clusterNodes : Except String ClusterNodes
  bucketFtt : Except String EcConfig
  versioning : Except String Str
  done : Except String Unit

/-- The browser, its pages, and their tasks that are in flight. -/
structure AdminWorld (Disks HealStatus ClusterNodes : Type) where
  world : BrowserWorld
  pages : AdminPages Disks HealStatus ClusterNodes
  tasks : List PageTask

namespace AdminWorld

/-! ## Handlers -/

section Handlers

variable (admin : AdminWorld Disks HealStatus ClusterNodes)

def endpoint : Str := admin.world.browser.app.client.endpoint

def start (tasks : List PageTask) : AdminWorld Disks HealStatus ClusterNodes :=
  { admin with tasks := admin.tasks ++ tasks }

def handleDisksLoaded (asked : PageRequest) (result : Except String Disks) :
    AdminWorld Disks HealStatus ClusterNodes :=
  { admin with pages := { admin.pages with disksData := some ⟨result, asked⟩ } }

def handleHealStatusLoaded (asked : PageRequest) (result : Except String HealStatus) :
    AdminWorld Disks HealStatus ClusterNodes :=
  { admin with pages := { admin.pages with healData := some ⟨result, asked⟩ } }

def handleClusterNodesLoaded (asked : PageRequest) (result : Except String ClusterNodes) :
    AdminWorld Disks HealStatus ClusterNodes :=
  { admin with pages := { admin.pages with clusterNodes := some ⟨result, asked⟩ } }

def handleBucketFttLoaded (asked : PageRequest) (result : Except String EcConfig) :
    AdminWorld Disks HealStatus ClusterNodes :=
  { admin with
    pages := { admin.pages with bucketFtt := some ⟨result.map (·.ftt), asked⟩ } }

def handleVersioningStatusLoaded (asked : PageRequest) (result : Except String Str) :
    AdminWorld Disks HealStatus ClusterNodes :=
  { admin with pages := { admin.pages with bucketVersioning := some ⟨result, asked⟩ } }

def handleRefreshDisks : AdminWorld Disks HealStatus ClusterNodes :=
  admin.start [.fetch .disks ⟨admin.endpoint, none⟩]

def handleRefreshHealStatus : AdminWorld Disks HealStatus ClusterNodes :=
  admin.start [.fetch .healing ⟨admin.endpoint, none⟩]

def handleRefreshClusterNodes : AdminWorld Disks HealStatus ClusterNodes :=
  admin.start [.fetch .cluster ⟨admin.endpoint, none⟩]

/-- The versioning of the selected bucket is set, if one is selected. -/
def setVersioning (status : Str) : AdminWorld Disks HealStatus ClusterNodes :=
  match admin.world.browser.app.selectedBucket with
  | some bucket => admin.start [.putVersioning ⟨admin.endpoint, some bucket⟩ status]
  | none => admin

def handleEnableVersioning : AdminWorld Disks HealStatus ClusterNodes :=
  admin.setVersioning "Enabled".toList

def handleSuspendVersioning : AdminWorld Disks HealStatus ClusterNodes :=
  admin.setVersioning "Suspended".toList

def handleVersioningToggled (result : Except String Unit) :
    AdminWorld Disks HealStatus ClusterNodes :=
  match result with
  | .ok () =>
      match admin.world.browser.app.selectedBucket with
      | some bucket => admin.start [.fetch .versioning ⟨admin.endpoint, some bucket⟩]
      | none => admin
  | .error error =>
      let browser := admin.world.browser.withError ("versioning toggle failed: " ++ error)
      { admin with world := { admin.world with browser := browser } }

/-- The handler of what a task ends with. -/
def finish (task : PageTask) (replies : PageReplies Disks HealStatus ClusterNodes) :
    AdminWorld Disks HealStatus ClusterNodes :=
  match task with
  | .fetch .disks asked => admin.handleDisksLoaded asked replies.disks
  | .fetch .healing asked => admin.handleHealStatusLoaded asked replies.healStatus
  | .fetch .cluster asked => admin.handleClusterNodesLoaded asked replies.clusterNodes
  | .fetch .faultTolerance asked => admin.handleBucketFttLoaded asked replies.bucketFtt
  | .fetch .versioning asked => admin.handleVersioningStatusLoaded asked replies.versioning
  | .putVersioning _ _ => admin.handleVersioningToggled replies.done

end Handlers

/-! ## What the handlers of the browser do to the pages -/

/-- Connecting drops what is known of the disks and of healing, selecting a bucket what is
known of its fault tolerance. -/
def dropped (surroundings : Surroundings) (browser : Browser)
    (pages : AdminPages Disks HealStatus ClusterNodes) :
    BrowserMessage → AdminPages Disks HealStatus ClusterNodes
  | .app message =>
      if (browser.app.switchesTo surroundings message).isSome then
        { pages with disksData := none, healData := none }
      else pages
  | .selectBucket _ => { pages with bucketFtt := none }
  | _ => pages

/-- The tasks of the pages that a message starts. A server that is detected says whether
it is part of a cluster. -/
def started (browser : Browser) (clusterEnabled : Bool) : BrowserMessage → List PageTask
  | .selectBucket name =>
      let request := ⟨browser.app.client.endpoint, some name⟩
      .fetch .versioning request ::
        if browser.isAbixio && browser.hasAdmin then [.fetch .faultTolerance request] else []
  | .abixioDetected true =>
      let request := ⟨browser.app.client.endpoint, none⟩
      [.fetch .disks request, .fetch .healing request] ++
        if clusterEnabled then [.fetch .cluster request] else []
  | .healObjectFinished object (.ok _) =>
      if browser.app.currentSelectedObject = some object then
        [.fetch .healing ⟨browser.app.client.endpoint, none⟩]
      else []
  | _ => []

/-- The pages beside the world that a message of the browser leads to. -/
def receive (admin : AdminWorld Disks HealStatus ClusterNodes) (world : BrowserWorld)
    (surroundings : Surroundings) (message : BrowserMessage) (clusterEnabled : Bool) :
    AdminWorld Disks HealStatus ClusterNodes where
  world := world
  pages := dropped surroundings admin.world.browser admin.pages message
  tasks := admin.tasks ++ started admin.world.browser clusterEnabled message

def browse (platform : Platform) (formats : DocumentFormats)
    (admin : AdminWorld Disks HealStatus ClusterNodes) (event : BrowserEvent)
    (clusterEnabled : Bool) : AdminWorld Disks HealStatus ClusterNodes :=
  let world := admin.world.step platform formats event
  match admin.world.received event with
  | some (surroundings, message) =>
      admin.receive world surroundings message clusterEnabled
  | none => { admin with world := world }

end AdminWorld

/-! ## Steps -/

/-- What happens in the browser, what the user asks for on the pages, and a task that
ends. -/
inductive AdminEvent (Disks HealStatus ClusterNodes : Type)
  | browse (event : BrowserEvent) (clusterEnabled : Bool)
  | refreshDisks
  | refreshHealStatus
  | refreshClusterNodes
  | enableVersioning
  | suspendVersioning
  | finish (index : Nat) (replies : PageReplies Disks HealStatus ClusterNodes)

namespace AdminWorld

def step (platform : Platform) (formats : DocumentFormats)
    (admin : AdminWorld Disks HealStatus ClusterNodes) :
    AdminEvent Disks HealStatus ClusterNodes → AdminWorld Disks HealStatus ClusterNodes
  | .browse event clusterEnabled => admin.browse platform formats event clusterEnabled
  | .refreshDisks => admin.handleRefreshDisks
  | .refreshHealStatus => admin.handleRefreshHealStatus
  | .refreshClusterNodes => admin.handleRefreshClusterNodes
  | .enableVersioning => admin.handleEnableVersioning
  | .suspendVersioning => admin.handleSuspendVersioning
  | .finish index replies =>
      match admin.tasks[index]? with
      | some task =>
          { admin with tasks := admin.tasks.eraseIdx index }.finish task replies
      | none => admin

def init (connections : List Connection) (serverConfig : ServerConfig)
    (startup : StartupOptions) (server : TagStore) :
    AdminWorld Disks HealStatus ClusterNodes where
  world := .start connections serverConfig startup server
  pages := .empty
  tasks := []

/-! ## The property -/

/-- What a page is about now: the connected server, or the bucket whose panel is shown. -/
def target (admin : AdminWorld Disks HealStatus ClusterNodes) (page : AdminPage) :
    Option PageRequest :=
  if page.ofBucket then
    match admin.world.browser.app.selection with
    | .bucket name => some ⟨admin.endpoint, some name⟩
    | _ => none
  else some ⟨admin.endpoint, none⟩

/-- What a page holds was asked for what it is about; a bucket page is about nothing while
no panel of a bucket is shown. -/
def ShowsOwn (page : AdminPage) (admin : AdminWorld Disks HealStatus ClusterNodes) : Prop :=
  ∀ asked, admin.pages.asked page = some asked →
    ∀ target, admin.target page = some target → asked = target

/-- The messages that change what a page is about and keep its contents, and when these
contents are right for it. -/
def MessageDue (page : AdminPage) (admin : AdminWorld Disks HealStatus ClusterNodes)
    (surroundings : Surroundings) : BrowserMessage → Prop
  | .app message =>
      page = .cluster → ∀ asked, admin.pages.asked page = some asked →
        ∀ endpoint, admin.world.browser.app.switchesTo surroundings message = some endpoint →
          asked = ⟨endpoint, none⟩
  | .selectBucket name =>
      page = .versioning → ∀ asked, admin.pages.asked page = some asked →
        asked = ⟨admin.endpoint, some name⟩
  | .createBucketDone name (.ok ()) =>
      page.ofBucket = true → ∀ asked, admin.pages.asked page = some asked →
        asked = ⟨admin.endpoint, some name⟩
  | _ => True

/-- An answer to what a page is about now, one that arrives while it is about nothing, or a
message that leaves the page right. -/
def Due (page : AdminPage) (admin : AdminWorld Disks HealStatus ClusterNodes) :
    AdminEvent Disks HealStatus ClusterNodes → Prop
  | .browse event _ =>
      ∀ surroundings message, admin.world.received event = some (surroundings, message) →
        admin.MessageDue page surroundings message
  | .finish index _ =>
      ∀ asked, admin.tasks[index]? = some (.fetch page asked) →
        ∀ target, admin.target page = some target → asked = target
  | _ => True

/-! ## Steps and the pages -/

section Steps

variable (platform : Platform) (formats : DocumentFormats)
  {admin after : AdminWorld Disks HealStatus ClusterNodes} {page : AdminPage}

theorem target_congr
    (h : after.world.browser.app.chosen = admin.world.browser.app.chosen) :
    after.target page = admin.target page := by
  obtain ⟨hendpoint, hselection⟩ := Prod.mk.inj h
  unfold target endpoint
  rw [hselection, hendpoint]

/-- A page stays right where it stays and is about the same. -/
theorem ShowsOwn.of_same (h : admin.ShowsOwn page)
    (hasked : after.pages.asked page = admin.pages.asked page)
    (hchosen : after.world.browser.app.chosen = admin.world.browser.app.chosen) :
    after.ShowsOwn page := by
  intro asked hheld target htarget
  rw [hasked] at hheld
  rw [target_congr hchosen] at htarget
  exact h asked hheld target htarget

theorem showsOwn_of_empty (h : admin.pages.asked page = none) : admin.ShowsOwn page := by
  intro asked hasked
  rw [h] at hasked
  cases hasked

/-- Where a page is about something, it is right exactly if it was asked for that. -/
theorem showsOwn_iff {request : PageRequest} (h : admin.target page = some request) :
    admin.ShowsOwn page ↔ ∀ asked, admin.pages.asked page = some asked → asked = request := by
  constructor
  · intro hown asked hasked
    exact hown asked hasked request h
  · intro hall asked hasked target htarget
    rw [h] at htarget
    rw [← Option.some.inj htarget]
    exact hall asked hasked

theorem target_of_server (h : page.ofBucket = false) :
    admin.target page = some ⟨admin.endpoint, none⟩ := by
  unfold target
  rw [h]
  rfl

theorem target_of_bucket {name : Str} (h : page.ofBucket = true)
    (hselection : admin.world.browser.app.selection = .bucket name) :
    admin.target page = some ⟨admin.endpoint, some name⟩ := by
  unfold target
  rw [h, hselection]
  rfl

/-- A page of a bucket is about something only where the panel of a bucket is shown. -/
theorem bucket_of_target (h : page.ofBucket = true) {request : PageRequest}
    (htarget : admin.target page = some request) :
    ∃ name, admin.world.browser.app.selection = .bucket name := by
  unfold target at htarget
  rw [h] at htarget
  cases hselection : admin.world.browser.app.selection with
  | bucket name => exact ⟨name, rfl⟩
  | none | object _ _ =>
      rw [hselection] at htarget
      cases htarget

/-! ### A message of the browser -/

section Messages

variable {surroundings : Surroundings} {message : BrowserMessage} {world : BrowserWorld}
  (clusterEnabled : Bool)

/-- Contents stay or are dropped. -/
theorem asked_dropped (browser : Browser) (pages : AdminPages Disks HealStatus ClusterNodes) :
    (dropped surroundings browser pages message).asked page = pages.asked page ∨
      (dropped surroundings browser pages message).asked page = none := by
  unfold dropped
  split
  next =>
    split
    next => cases page <;> first | exact .inl rfl | exact .inr rfl
    next => exact .inl rfl
  next => cases page <;> first | exact .inl rfl | exact .inr rfl
  next => exact .inl rfl

/-- What is asked for the new target stays right where it stays. -/
theorem receive_of_target (h : admin.ShowsOwn page)
    (htarget : ∀ target,
      (admin.receive world surroundings message clusterEnabled).target page = some target →
        admin.target page = some target) :
    (admin.receive world surroundings message clusterEnabled).ShowsOwn page := by
  intro asked hasked target hafter
  rcases @asked_dropped _ _ _ page surroundings message admin.world.browser admin.pages with
    hkept | hdropped
  · exact h asked (hkept ▸ hasked) target (htarget target hafter)
  · have hnone : (none : Option PageRequest) = some asked := hdropped ▸ hasked
    cases hnone

variable (hworld : world.browser =
  (admin.world.browser.update platform formats surroundings message).1)

include hworld

theorem receive_endpoint :
    (admin.receive world surroundings message clusterEnabled).endpoint =
      (admin.world.browser.switchesTo surroundings message).getD admin.endpoint := by
  show world.browser.app.client.endpoint = _
  rw [hworld]
  exact browser_update_endpoint platform surroundings formats message

/-- A page about the server is left right by connecting where it is dropped, or was asked
for the new server before. -/
theorem receive_server_iff (hserver : page.ofBucket = false) (h : admin.ShowsOwn page) :
    (admin.receive world surroundings message clusterEnabled).ShowsOwn page ↔
      admin.MessageDue page surroundings message := by
  have hendpoint := receive_endpoint platform formats clusterEnabled hworld
  cases hswitch : admin.world.browser.switchesTo surroundings message with
  | none =>
      rw [hswitch, Option.getD_none] at hendpoint
      refine iff_of_true (receive_of_target clusterEnabled h fun target htarget => ?_) ?_
      · rw [target_of_server hserver] at htarget ⊢
        rw [← hendpoint]
        exact htarget
      · cases message with
        | app message =>
            intro _ asked _ endpoint hsome
            cases hswitch.symm.trans hsome
        | selectBucket name =>
            intro hpage
            rw [hpage] at hserver
            cases hserver
        | createBucketDone name result =>
            cases result with
            | error e => trivial
            | ok _ =>
                intro hbucket
                rw [hserver] at hbucket
                cases hbucket
        | _ => trivial
  | some endpoint =>
      rw [hswitch, Option.getD_some] at hendpoint
      cases message with
      | app message =>
          have hsome : (admin.world.browser.app.switchesTo surroundings message).isSome = true :=
            Option.isSome_iff_exists.mpr ⟨endpoint, hswitch⟩
          have hpages : (admin.receive world surroundings (.app message) clusterEnabled).pages =
              { admin.pages with disksData := none, healData := none } := if_pos hsome
          cases page with
          | disks | healing =>
              refine iff_of_true (showsOwn_of_empty ?_) fun hpage => by cases hpage
              rw [hpages]
              rfl
          | cluster =>
              rw [showsOwn_iff (target_of_server hserver), hpages, hendpoint]
              constructor
              · intro hall _ asked hasked other hother
                rw [← Option.some.inj (hswitch.symm.trans hother)]
                exact hall asked hasked
              · intro hdue asked hasked
                exact hdue rfl asked hasked endpoint hswitch
          | faultTolerance | versioning => cases hserver
      | _ => cases hswitch

/-- A page about a bucket is left right by selecting or creating another bucket where it
is dropped, or was asked for the bucket before. -/
theorem receive_bucket_iff (hbucket : page.ofBucket = true) (h : admin.ShowsOwn page) :
    (admin.receive world surroundings message clusterEnabled).ShowsOwn page ↔
      admin.MessageDue page surroundings message := by
  have hendpoint := receive_endpoint platform formats clusterEnabled hworld
  have hkept : (∀ name, message ≠ .selectBucket name) →
      (∀ name, message ≠ .createBucketDone name (.ok ())) →
      (admin.receive world surroundings message clusterEnabled).ShowsOwn page := by
    intro hselect hcreate
    apply receive_of_target clusterEnabled h
    intro target htarget
    obtain ⟨name, hname⟩ := bucket_of_target hbucket htarget
    have hafter : (admin.world.browser.update platform formats surroundings
        message).1.app.selection = .bucket name := hworld ▸ hname
    rcases browser_update_bucket platform surroundings formats hafter with
      hselected | hcreated | ⟨hbefore, hstays⟩
    · exact absurd hselected (hselect name)
    · exact absurd hcreated (hcreate name)
    · rw [hstays, Option.getD_none] at hendpoint
      rw [target_of_bucket hbucket hname, hendpoint] at htarget
      rw [target_of_bucket hbucket hbefore]
      exact htarget
  cases message with
  | selectBucket name =>
      have hselection : (admin.receive world surroundings (.selectBucket name)
          clusterEnabled).world.browser.app.selection = .bucket name := by
        show world.browser.app.selection = _
        rw [hworld]
        rfl
      rw [showsOwn_iff (target_of_bucket hbucket hselection), hendpoint]
      cases page with
      | faultTolerance =>
          refine iff_of_true ?_ fun hpage => by cases hpage
          intro asked hasked
          cases hasked
      | versioning =>
          constructor
          · intro hall _
            exact hall
          · intro hdue
            exact hdue rfl
      | disks | healing | cluster => cases hbucket
  | createBucketDone name result =>
      cases result with
      | error e => exact iff_of_true (hkept (fun _ => by simp) fun _ => by simp) trivial
      | ok done =>
          cases done
          have hselection : (admin.receive world surroundings (.createBucketDone name (.ok ()))
              clusterEnabled).world.browser.app.selection = .bucket name := by
            show world.browser.app.selection = _
            rw [hworld]
            rfl
          rw [showsOwn_iff (target_of_bucket hbucket hselection), hendpoint]
          constructor
          · intro hall _
            exact hall
          · intro hdue
            exact hdue hbucket
  | app message =>
      refine iff_of_true (hkept (fun _ => by simp) fun _ => by simp) fun hpage => ?_
      rw [hpage] at hbucket
      cases hbucket
  | _ => exact iff_of_true (hkept (fun _ => by simp) fun _ => by simp) trivial

end Messages

theorem browse_own_iff (h : admin.ShowsOwn page) (event : BrowserEvent) (clusterEnabled : Bool) :
    (admin.browse platform formats event clusterEnabled).ShowsOwn page ↔
      admin.Due page (.browse event clusterEnabled) := by
  have hbrowser := @step_browser platform formats admin.world event
  unfold BrowserWorld.handle at hbrowser
  cases hreceived : admin.world.received event with
  | none =>
      rw [hreceived] at hbrowser
      have hbrowse : admin.browse platform formats event clusterEnabled =
          { admin with world := admin.world.step platform formats event } := by
        simp only [browse, hreceived]
      rw [hbrowse]
      refine iff_of_true (h.of_same rfl ?_) fun surroundings message hsome => ?_
      · exact congrArg (fun browser : Browser => browser.app.chosen) hbrowser
      · rw [hreceived] at hsome
        cases hsome
  | some received =>
      rw [hreceived] at hbrowser
      have hbrowse : admin.browse platform formats event clusterEnabled =
          admin.receive (admin.world.step platform formats event) received.1 received.2
            clusterEnabled := by
        simp only [browse, hreceived]
      have hmessage :
          (admin.browse platform formats event clusterEnabled).ShowsOwn page ↔
            admin.MessageDue page received.1 received.2 := by
        rw [hbrowse]
        cases hpage : page.ofBucket with
        | false => exact receive_server_iff platform formats clusterEnabled hbrowser hpage h
        | true => exact receive_bucket_iff platform formats clusterEnabled hbrowser hpage h
      rw [hmessage]
      constructor
      · intro hdue surroundings message hsome
        obtain rfl := Option.some.inj (hreceived.symm.trans hsome)
        exact hdue
      · intro hdue
        exact hdue received.1 received.2 hreceived

theorem start_own (h : admin.ShowsOwn page) (tasks : List PageTask) :
    (admin.start tasks).ShowsOwn page :=
  h.of_same rfl rfl

theorem setVersioning_own (h : admin.ShowsOwn page) (status : Str) :
    (admin.setVersioning status).ShowsOwn page := by
  unfold setVersioning
  split
  next => exact start_own h _
  next => exact h

/-- An answer fills its page, whatever the page is about by then. -/
theorem finish_own_iff (h : admin.ShowsOwn page) (task : PageTask)
    (replies : PageReplies Disks HealStatus ClusterNodes) :
    (admin.finish task replies).ShowsOwn page ↔
      ∀ asked, task = .fetch page asked →
        ∀ target, admin.target page = some target → asked = target := by
  cases task with
  | putVersioning request status =>
      refine iff_of_true ?_ fun asked hfetch => by cases hfetch
      simp only [finish, handleVersioningToggled]
      split
      next =>
        split
        next => exact start_own h _
        next => exact h
      next => exact h.of_same rfl rfl
  | fetch filled asked =>
      by_cases hpage : filled = page
      · subst hpage
        have hasked : (admin.finish (.fetch filled asked) replies).pages.asked filled =
            some asked := by
          cases filled <;> rfl
        have htarget : (admin.finish (.fetch filled asked) replies).target filled =
            admin.target filled := by
          cases filled <;> rfl
        constructor
        · intro hafter other hother target hsome
          obtain rfl := (PageTask.fetch.inj hother).2
          exact hafter asked hasked target (htarget.trans hsome)
        · intro hdue other hother target hsome
          obtain rfl := Option.some.inj (hasked.symm.trans hother)
          exact hdue asked rfl target (htarget.symm.trans hsome)
      · refine iff_of_true (h.of_same ?_ ?_) fun other hother => ?_
        · cases filled <;> cases page <;> first | rfl | exact absurd rfl hpage
        · cases filled <;> rfl
        · exact absurd (PageTask.fetch.inj hother).1 hpage

/-- One event leaves a page right exactly if it is due. -/
theorem step_page_iff (h : admin.ShowsOwn page)
    (event : AdminEvent Disks HealStatus ClusterNodes) :
    (admin.step platform formats event).ShowsOwn page ↔ admin.Due page event := by
  cases event with
  | browse event clusterEnabled => exact browse_own_iff platform formats h event clusterEnabled
  | refreshDisks | refreshHealStatus | refreshClusterNodes =>
      exact iff_of_true (start_own h _) trivial
  | enableVersioning | suspendVersioning => exact iff_of_true (setVersioning_own h _) trivial
  | finish index replies =>
      simp only [step, Due]
      cases hat : admin.tasks[index]? with
      | none => exact iff_of_true h fun asked hsome => by cases hsome
      | some task =>
          have hbefore :
              ShowsOwn page { admin with tasks := admin.tasks.eraseIdx index } :=
            h.of_same rfl rfl
          rw [finish_own_iff hbefore task replies]
          constructor
          · intro hdue asked hsome
            exact hdue asked (Option.some.inj hsome)
          · intro hdue asked htask
            exact hdue asked (congrArg some htask)

end Steps

/-- In every state of a run a page holds what was asked for the connected server, or for
the bucket whose panel is shown, exactly if every answer for it arrives while it is about
what the answer was asked for or no panel of a bucket is shown, no server is connected to
while the cluster nodes of another one are held, no bucket is selected while the versioning
status of another one is held, and no bucket gets created while either is held of another
bucket. -/
theorem admin_page_exact (platform : Platform) (formats : DocumentFormats)
    (connections : List Connection) (serverConfig : ServerConfig) (startup : StartupOptions)
    (server : TagStore) (page : AdminPage)
    (events : List (AdminEvent Disks HealStatus ClusterNodes)) :
    (∀ earlier, earlier <+: events →
      (run (step platform formats) (init connections serverConfig startup server)
        earlier).ShowsOwn page) ↔
      Along (step platform formats) (Due page) (init connections serverConfig startup server)
        events :=
  forall_prefix_iff_along (fun _ => True) (ShowsOwn page) (fun _ _ _ _ => trivial)
    (fun _ event _ _ h => step_page_iff platform formats h event) trivial
    (showsOwn_of_empty (by cases page <;> rfl)) (along_true _ _)

/-- The cluster nodes are loaded, and another server is saved and connected to. -/
def clusterLeftBehind : List (AdminEvent Unit Unit Unit) :=
  [.refreshClusterNodes,
    .finish 0 ⟨.ok (), .ok (), .ok (), .ok ⟨1⟩, .ok [], .ok ()⟩,
    .browse (.user calm (.app (.newConnNameChanged "home".toList))) false,
    .browse (.user calm (.app (.newConnEndpointChanged "http://a".toList))) false,
    .browse (.user calm (.app .addConnection)) false,
    .browse (.user calm (.app (.connectTo "home".toList))) false]

/-- The nodes of the first server are held for the second one. -/
example :
    let before : AdminWorld Unit Unit Unit := ⟨unconnectedBrowser, .empty, []⟩
    let left := run (step .unix unreadable) before clusterLeftBehind
    (left.pages.asked .cluster).map (·.endpoint) = some before.endpoint ∧
      left.endpoint = "http://a".toList ∧ before.endpoint ≠ "http://a".toList := by
  decide

end AdminWorld

end AbixioUi
