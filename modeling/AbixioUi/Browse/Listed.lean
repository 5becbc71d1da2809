import AbixioUi.Browse.Documents

/-! # Where the keys of delete requests were listed

Bulk deletes take the marked keys, prefix deletes a list that does not say what it
lists, and bucket deletes a preview that names its bucket. Every key that is deleted was
listed in its bucket as long as marks and lists are taken from listings of the right
bucket.
-/

namespace AbixioUi

open Foundation

/-! ## The property -/

/-- A delivered listing for this request named the key. -/
def ListedUnder (listed : List DeliveredListing) (request : ListingRequest) (key : Str) : Prop :=
  ∃ listing ∈ listed, listing.request = request ∧ key ∈ listing.keys

/-- A delivered listing of the bucket named the key. -/
def ListedIn (listed : List DeliveredListing) (bucket key : Str) : Prop :=
  ∃ request : ListingRequest, request.bucket = bucket ∧ ListedUnder listed request key

/-- The keys a request deletes were listed in its bucket; those of a prefix delete under
the bucket and the prefix of the open modal. -/
def AppTask.NamesListed (listed : List DeliveredListing) (app : App) : AppTask → Prop
  | .deleteBulk _ bucket keys => ∀ key ∈ keys, ListedIn listed bucket key
  | .deletePrefix _ bucket keys =>
      ∃ modal, app.prefixDelete = some modal ∧ modal.bucket = bucket ∧
        ∀ key ∈ keys, ListedUnder listed ⟨bucket, modal.keyPrefix⟩ key
  | .deleteBucketObject _ bucket key => ListedIn listed bucket key
  | _ => True

/-- Every delete request that the event issues names listed keys. -/
def BrowserWorld.DeletesListed (platform : Platform) (formats : DocumentFormats)
    (world : BrowserWorld) (event : BrowserEvent) : Prop :=
  ∀ task, .app task ∈ (world.handle platform formats event).2 →
    task.NamesListed (world.listedAfter event) world.browser.app

/-! ## The condition -/

/-- A listing of the bucket that is on the screen shows the key. -/
def Browser.Shows (browser : Browser) (bucket key : Str) : Prop :=
  ∃ result asked, (browser.objects = some ⟨.ok result, asked⟩ ∨
    browser.findResults = some ⟨.ok result, asked⟩) ∧ asked.bucket = bucket ∧
    key ∈ result.objects

/-- The keys a message marks that were not marked before. -/
def BrowserMessage.marks (browser : Browser) : BrowserMessage → List Str
  | .toggleObjectSelected key => if browser.app.selectedKeys.contains key then [] else [key]
  | .selectAllObjects => browser.allKeys.filter fun key => !browser.app.selectedKeys.contains key
  | _ => []

/-- Keys are marked in listings of the selected bucket, and keys that arrive for an open
prefix modal were requested for its bucket and prefix. -/
structure BrowserWorld.KeysDue (world : BrowserWorld) (event : BrowserEvent) : Prop where
  marks : ∀ surroundings message, world.received event = some (surroundings, message) →
    ∀ bucket, world.browser.app.selectedBucket = some bucket →
      ∀ key ∈ message.marks world.browser, world.browser.Shows bucket key
  lists : ∀ surroundings index replies request, event = .deliver surroundings index replies →
    world.inFlight[index]? = some request →
    ∀ client bucket keyPrefix, request.task = .app (.listPrefix client bucket keyPrefix) →
      ∀ keys, replies.keys = .ok keys → keys ≠ [] →
        ∀ modal, world.browser.app.prefixDelete = some modal →
          modal.bucket = bucket ∧ modal.keyPrefix = keyPrefix

/-! ## The invariant -/

/-- What the delete modals work on was listed where it would be deleted. -/
structure App.KeysFrom (listed : List DeliveredListing) (app : App) : Prop where
  marked : ∀ bucket, app.selectedBucket = some bucket →
    ∀ key ∈ app.selectedKeys, ListedIn listed bucket key
  bulk : ∀ modal, app.bulkDelete = some modal →
    ∀ key ∈ modal.keys, ListedIn listed modal.bucket key
  prefixed : ∀ modal, app.prefixDelete = some modal →
    ∀ key ∈ modal.keys, ListedUnder listed ⟨modal.bucket, modal.keyPrefix⟩ key
  previewed : ∀ modal, app.bucketDelete = some modal →
    ∀ key ∈ modal.objectKeys, ListedIn listed modal.bucket key

/-- The listings on the screen were delivered for the requests they are traced to. -/
structure Browser.KeysFrom (listed : List DeliveredListing) (browser : Browser) : Prop where
  app : browser.app.KeysFrom listed
  shown : ∀ result asked, browser.objects = some ⟨.ok result, asked⟩ →
    ∀ key ∈ result.objects, ListedUnder listed asked key
  found : ∀ result asked, browser.findResults = some ⟨.ok result, asked⟩ →
    ∀ key ∈ result.objects, ListedUnder listed asked key

section Listed

variable {listed listed' : List DeliveredListing}

theorem ListedUnder.mono {request : ListingRequest} {key : Str}
    (h : ListedUnder listed request key) (hsub : listed ⊆ listed') :
    ListedUnder listed' request key := by
  obtain ⟨listing, hmem, hrequest, hkey⟩ := h
  exact ⟨listing, hsub hmem, hrequest, hkey⟩

theorem ListedIn.mono {bucket key : Str} (h : ListedIn listed bucket key)
    (hsub : listed ⊆ listed') : ListedIn listed' bucket key := by
  obtain ⟨request, hbucket, hkey⟩ := h
  exact ⟨request, hbucket, hkey.mono hsub⟩

theorem App.KeysFrom.mono {app : App} (h : app.KeysFrom listed) (hsub : listed ⊆ listed') :
    app.KeysFrom listed' where
  marked := fun bucket hbucket key hkey => (h.marked bucket hbucket key hkey).mono hsub
  bulk := fun modal hmodal key hkey => (h.bulk modal hmodal key hkey).mono hsub
  prefixed := fun modal hmodal key hkey => (h.prefixed modal hmodal key hkey).mono hsub
  previewed := fun modal hmodal key hkey => (h.previewed modal hmodal key hkey).mono hsub

theorem Browser.KeysFrom.mono {browser : Browser} (h : browser.KeysFrom listed)
    (hsub : listed ⊆ listed') : browser.KeysFrom listed' where
  app := h.app.mono hsub
  shown := fun result asked hshown key hkey => (h.shown result asked hshown key hkey).mono hsub
  found := fun result asked hfound key hkey => (h.found result asked hfound key hkey).mono hsub

/-- A key shown in a listing of a bucket was listed there. -/
theorem Browser.KeysFrom.of_shows {browser : Browser} (h : browser.KeysFrom listed)
    {bucket key : Str} (hshows : browser.Shows bucket key) : ListedIn listed bucket key := by
  obtain ⟨result, asked, hon, hbucket, hkey⟩ := hshows
  rcases hon with hon | hon
  · exact ⟨asked, hbucket, h.shown result asked hon key hkey⟩
  · exact ⟨asked, hbucket, h.found result asked hon key hkey⟩

end Listed

/-! ## The delete modals -/

/-- The modals stay right, and every request they issue names listed keys. -/
structure KeysKept (listed : List DeliveredListing) (app : App) (result : App × List AppTask) :
    Prop where
  keys : result.1.KeysFrom listed
  tasks : ∀ task ∈ result.2, task.NamesListed listed app

section Modals

variable {listed : List DeliveredListing} {app : App}

theorem AppTask.namesListed_of_not_deletes {task : AppTask} (h : task.deletesKeys = false) :
    task.NamesListed listed app := by
  cases task with
  | deleteBulk _ _ _ | deletePrefix _ _ _ | deleteBucketObject _ _ _ => cases h
  | _ => trivial

theorem KeysKept.of_tasks {result : App × List AppTask} (h : result.1.KeysFrom listed)
    (htasks : ∀ task ∈ result.2, task.deletesKeys = false) : KeysKept listed app result :=
  ⟨h, fun task htask => AppTask.namesListed_of_not_deletes (htasks task htask)⟩

theorem KeysKept.quiet {app' : App} (h : app'.KeysFrom listed) : KeysKept listed app (app', []) :=
  .of_tasks h fun _ htask => by cases htask

theorem App.KeysFrom.of_marks {app' : App} (h : app.KeysFrom listed)
    (hmarks : app'.marks = app.marks) (hbucket : app'.selectedBucket = app.selectedBucket) :
    app'.KeysFrom listed where
  marked := by
    rw [hbucket, show app'.selectedKeys = app.selectedKeys from congrArg Marks.selectedKeys hmarks]
    exact h.marked
  bulk := by
    rw [show app'.bulkDelete = app.bulkDelete from congrArg Marks.bulkDelete hmarks]
    exact h.bulk
  prefixed := by
    rw [show app'.prefixDelete = app.prefixDelete from congrArg Marks.prefixDelete hmarks]
    exact h.prefixed
  previewed := by
    rw [show app'.bucketDelete = app.bucketDelete from congrArg Marks.bucketDelete hmarks]
    exact h.previewed

/-- Other marks and another selection, with the same modals. -/
theorem App.KeysFrom.of_modals {app' : App} (h : app.KeysFrom listed)
    (hmarked : ∀ bucket, app'.selectedBucket = some bucket →
      ∀ key ∈ app'.selectedKeys, ListedIn listed bucket key)
    (hbulk : app'.bulkDelete = app.bulkDelete) (hprefixes : app'.prefixDelete = app.prefixDelete)
    (hbucket : app'.bucketDelete = app.bucketDelete) : app'.KeysFrom listed where
  marked := hmarked
  bulk := by
    rw [hbulk]
    exact h.bulk
  prefixed := by
    rw [hprefixes]
    exact h.prefixed
  previewed := by
    rw [hbucket]
    exact h.previewed

theorem App.KeysFrom.unmarked {app' : App} (h : app.KeysFrom listed)
    (hmarked : app'.selectedKeys = []) (hbulk : app'.bulkDelete = app.bulkDelete)
    (hprefixes : app'.prefixDelete = app.prefixDelete)
    (hbucket : app'.bucketDelete = app.bucketDelete) : app'.KeysFrom listed :=
  h.of_modals (fun bucket _ key hkey => by rw [hmarked] at hkey; cases hkey) hbulk hprefixes hbucket

theorem mem_nextKeyBatch {keys : List Str} {nextIndex : Nat} {key : Str}
    (h : key ∈ nextKeyBatch keys nextIndex) : key ∈ keys :=
  List.mem_of_mem_drop (List.mem_of_mem_take h)

theorem deletesDone_keysKept (h : app.KeysFrom listed) (summary : String) {before : App} :
    KeysKept listed before (app.deletesDone summary) :=
  .of_tasks (h.unmarked rfl rfl rfl rfl) (fetchObjects_deletesKeys _)

theorem App.KeysFrom.bulkDelete_none (h : app.KeysFrom listed) :
    { app with bulkDelete := none }.KeysFrom listed where
  marked := h.marked
  bulk := fun _ hmodal => by cases hmodal
  prefixed := h.prefixed
  previewed := h.previewed

theorem App.KeysFrom.prefixDelete_none (h : app.KeysFrom listed) :
    { app with prefixDelete := none }.KeysFrom listed where
  marked := h.marked
  bulk := h.bulk
  prefixed := fun _ hmodal => by cases hmodal
  previewed := h.previewed

theorem App.KeysFrom.bucketDelete_none (h : app.KeysFrom listed) :
    { app with bucketDelete := none }.KeysFrom listed where
  marked := h.marked
  bulk := h.bulk
  prefixed := h.prefixed
  previewed := fun _ hmodal => by cases hmodal

/-- The bulk modal replaced by one with listed keys. -/
theorem App.KeysFrom.of_bulk {app' : App} {modal : BulkDeleteState} (h : app.KeysFrom listed)
    (hmarks : app'.marks = { app.marks with bulkDelete := some modal })
    (hbucket : app'.selectedBucket = app.selectedBucket)
    (hmodal : ∀ key ∈ modal.keys, ListedIn listed modal.bucket key) : app'.KeysFrom listed := by
  have hopen : { app with bulkDelete := some modal }.KeysFrom listed := by
    refine ⟨h.marked, ?_, h.prefixed, h.previewed⟩
    intro shown hshown
    obtain rfl := Option.some.inj hshown
    exact hmodal
  exact hopen.of_marks hmarks hbucket

theorem App.KeysFrom.of_prefix {app' : App} {modal : PrefixDeleteState} (h : app.KeysFrom listed)
    (hmarks : app'.marks = { app.marks with prefixDelete := some modal })
    (hbucket : app'.selectedBucket = app.selectedBucket)
    (hmodal : ∀ key ∈ modal.keys, ListedUnder listed ⟨modal.bucket, modal.keyPrefix⟩ key) :
    app'.KeysFrom listed := by
  have hopen : { app with prefixDelete := some modal }.KeysFrom listed := by
    refine ⟨h.marked, h.bulk, ?_, h.previewed⟩
    intro shown hshown
    obtain rfl := Option.some.inj hshown
    exact hmodal
  exact hopen.of_marks hmarks hbucket

theorem App.KeysFrom.of_bucket {app' : App} {modal : BucketDeleteState} (h : app.KeysFrom listed)
    (hmarks : app'.marks = { app.marks with bucketDelete := some modal })
    (hbucket : app'.selectedBucket = app.selectedBucket)
    (hmodal : ∀ key ∈ modal.objectKeys, ListedIn listed modal.bucket key) :
    app'.KeysFrom listed := by
  have hopen : { app with bucketDelete := some modal }.KeysFrom listed := by
    refine ⟨h.marked, h.bulk, h.prefixed, ?_⟩
    intro shown hshown
    obtain rfl := Option.some.inj hshown
    exact hmodal
  exact hopen.of_marks hmarks hbucket

/-- The next batch is taken from the keys of the modal. -/
theorem processNextBulkDeleteStep_keysKept (h : app.KeysFrom listed) {before : App} :
    KeysKept listed before (processNextBulkDeleteStep app) := by
  unfold processNextBulkDeleteStep
  cases hmodal : app.bulkDelete with
  | none => exact .quiet h
  | some state =>
      have hkeys := h.bulk state hmodal
      by_cases hmore : state.nextIndex < state.keys.length
      · simp only [hmore, if_true]
        refine ⟨h.of_bulk rfl rfl hkeys, fun task htask => ?_⟩
        obtain rfl := List.mem_singleton.mp htask
        exact fun key hkey => hkeys key (mem_nextKeyBatch hkey)
      · simp only [hmore, if_false]
        exact deletesDone_keysKept h.bulkDelete_none _

/-- A batch is taken from the keys of the modal, whose bucket and prefix it had before. -/
theorem processNextPrefixDeleteBatch_keysKept (h : app.KeysFrom listed) {before : App}
    (hsame : ∀ modal, app.prefixDelete = some modal → ∃ modal', before.prefixDelete = some modal' ∧
      modal'.bucket = modal.bucket ∧ modal'.keyPrefix = modal.keyPrefix) :
    KeysKept listed before (processNextPrefixDeleteBatch app) := by
  unfold processNextPrefixDeleteBatch
  cases hmodal : app.prefixDelete with
  | none => exact .quiet h
  | some state =>
      have hkeys := h.prefixed state hmodal
      by_cases hmore : state.nextIndex < state.keys.length
      · simp only [hmore, if_true]
        refine ⟨h.of_prefix rfl rfl hkeys, fun task htask => ?_⟩
        obtain rfl := List.mem_singleton.mp htask
        obtain ⟨modal, hbefore, hbucket, hprefixes⟩ := hsame state hmodal
        refine ⟨modal, hbefore, hbucket, fun key hkey => ?_⟩
        rw [hprefixes]
        exact hkeys key (mem_nextKeyBatch hkey)
      · simp only [hmore, if_false]
        exact deletesDone_keysKept h.prefixDelete_none _

theorem processNextBucketDeleteStep_keysKept (h : app.KeysFrom listed) {before : App} :
    KeysKept listed before (processNextBucketDeleteStep app) := by
  unfold processNextBucketDeleteStep
  cases hmodal : app.bucketDelete with
  | none => exact .quiet h
  | some state =>
      have hkeys := h.previewed state hmodal
      simp only
      split
      next => exact .quiet h
      next =>
        refine ⟨h.of_bucket rfl rfl hkeys, fun task htask => ?_⟩
        simp only at htask
        split at htask
        next key hkey =>
          obtain rfl := List.mem_singleton.mp htask
          exact hkeys key (List.mem_of_getElem? hkey)
        next =>
          obtain rfl := List.mem_singleton.mp htask
          trivial

theorem handleBulkDeleteBatchFinished_keysKept (h : app.KeysFrom listed)
    (result : Except String Nat) :
    KeysKept listed app (handleBulkDeleteBatchFinished app result) := by
  unfold handleBulkDeleteBatchFinished
  cases hmodal : app.bulkDelete with
  | none => exact .quiet h
  | some state =>
      have hkeys := h.bulk state hmodal
      cases result with
      | error e => exact .quiet (h.of_bulk rfl rfl hkeys)
      | ok count =>
          apply processNextBulkDeleteStep_keysKept
          exact h.of_bulk rfl rfl hkeys

theorem handlePrefixDeleteBatchFinished_keysKept (h : app.KeysFrom listed)
    (result : Except String Nat) :
    KeysKept listed app (handlePrefixDeleteBatchFinished app result) := by
  unfold handlePrefixDeleteBatchFinished
  cases hmodal : app.prefixDelete with
  | none => exact .quiet h
  | some state =>
      have hkeys := h.prefixed state hmodal
      cases result with
      | error e => exact .quiet (h.of_prefix rfl rfl hkeys)
      | ok count =>
          apply processNextPrefixDeleteBatch_keysKept
          · exact h.of_prefix rfl rfl hkeys
          · intro modal hnew
            obtain rfl := Option.some.inj hnew
            exact ⟨state, hmodal, rfl, rfl⟩

theorem handleBucketDeleteStepFinished_keysKept (h : app.KeysFrom listed)
    (result : Except String BucketDeleteStepResult) :
    KeysKept listed app (handleBucketDeleteStepFinished app result) := by
  unfold handleBucketDeleteStepFinished
  cases hmodal : app.bucketDelete with
  | none => exact .quiet h
  | some state =>
      have hkeys := h.previewed state hmodal
      match result with
      | .ok (.objectDeleted label) =>
          apply processNextBucketDeleteStep_keysKept
          exact h.of_bucket rfl rfl hkeys
      | .ok (.bucketDeleted bucket) =>
          refine .of_tasks ?_ fun task htask => ?_
          · simp only
            split
            next => exact h.bucketDelete_none.unmarked rfl rfl rfl rfl
            next => exact h.bucketDelete_none.of_marks rfl rfl
          · rw [List.mem_singleton.mp htask]
            rfl
      | .error error =>
          simp only
          split
          next =>
            refine .of_tasks (h.of_bucket rfl rfl hkeys) fun task htask => ?_
            rcases List.mem_append.mp htask with htask | htask
            · rw [List.mem_singleton.mp htask]
              rfl
            · exact fetchObjects_deletesKeys _ task htask
          next =>
            refine .of_tasks (h.of_bucket rfl rfl hkeys) fun task htask => ?_
            rw [List.mem_singleton.mp htask]
            rfl

/-! ## Messages of the application -/

/-- The keys a message brings to a modal were listed where the modal would delete them. -/
def Message.BringsListed (listed : List DeliveredListing) (app : App) : Message → Prop
  | .prefixDeleteListLoaded (.ok keys) =>
      ∀ modal, app.prefixDelete = some modal →
        ∀ key ∈ keys, ListedUnder listed ⟨modal.bucket, modal.keyPrefix⟩ key
  | .bucketDeletePreviewLoaded bucket (.ok keys) => ∀ key ∈ keys, ListedIn listed bucket key
  | _ => True

theorem handleOpenBulkDeleteModal_keysKept (h : app.KeysFrom listed) :
    KeysKept listed app (handleOpenBulkDeleteModal app) := by
  unfold handleOpenBulkDeleteModal
  cases hbucket : app.selectedBucket with
  | none => exact .quiet h
  | some bucket =>
      by_cases hnil : app.selectedKeys = []
      · simp only [hnil, if_true]
        exact .quiet h
      · simp only [hnil, if_false]
        apply KeysKept.quiet
        exact h.of_bulk rfl hbucket.symm (h.marked bucket hbucket)

theorem handlePrefixDeleteListLoaded_keysKept (h : app.KeysFrom listed)
    (result : Except String (List Str))
    (hlisted : (Message.prefixDeleteListLoaded result).BringsListed listed app) :
    KeysKept listed app (handlePrefixDeleteListLoaded app result) := by
  unfold handlePrefixDeleteListLoaded
  cases hmodal : app.prefixDelete with
  | none => exact .quiet h
  | some state =>
      cases result with
      | ok keys =>
          apply KeysKept.quiet
          exact h.of_prefix rfl rfl (hlisted state hmodal)
      | error e =>
          apply KeysKept.quiet
          exact h.of_prefix rfl rfl (h.prefixed state hmodal)

/-- A preview for another bucket is dropped. -/
theorem handleBucketDeletePreviewLoaded_keysKept (h : app.KeysFrom listed) (bucket : Str)
    (result : Except String (List Str))
    (hlisted : (Message.bucketDeletePreviewLoaded bucket result).BringsListed listed app) :
    KeysKept listed app (handleBucketDeletePreviewLoaded app bucket result) := by
  unfold handleBucketDeletePreviewLoaded
  cases hmodal : app.bucketDelete with
  | none => exact .quiet h
  | some state =>
      simp only
      split
      next => exact .quiet h
      next hsame =>
        obtain rfl : state.bucket = bucket := not_not.mp hsame
        cases result with
        | ok keys =>
            apply KeysKept.quiet
            exact h.of_bucket rfl rfl hlisted
        | error e =>
            apply KeysKept.quiet
            exact h.of_bucket rfl rfl (h.previewed state hmodal)

theorem handleOpenPrefixDeleteModal_keysKept (h : app.KeysFrom listed) (keyPrefix : Str) :
    KeysKept listed app (handleOpenPrefixDeleteModal app keyPrefix) := by
  unfold handleOpenPrefixDeleteModal
  cases hbucket : app.selectedBucket with
  | none => exact .quiet h
  | some bucket =>
      refine .of_tasks ?_ fun task htask => ?_
      · exact h.of_prefix rfl hbucket.symm fun key hkey => by cases hkey
      · rw [List.mem_singleton.mp htask]
        rfl

theorem handleOpenDeleteBucketModal_keysKept (h : app.KeysFrom listed) :
    KeysKept listed app (handleOpenDeleteBucketModal app) := by
  unfold handleOpenDeleteBucketModal
  cases app.currentSelectedBucket with
  | none => exact .quiet h
  | some bucket =>
      refine .of_tasks ?_ fun task htask => ?_
      · exact h.of_bucket rfl rfl fun key hkey => by cases hkey
      · rw [List.mem_singleton.mp htask]
        rfl

theorem handleCloseDeleteBucketModal_keysKept (h : app.KeysFrom listed) :
    KeysKept listed app (handleCloseDeleteBucketModal app) := by
  unfold handleCloseDeleteBucketModal
  cases app.bucketDelete with
  | none => exact .quiet h.bucketDelete_none
  | some state =>
      simp only
      split
      next => exact .quiet h
      next => exact .quiet h.bucketDelete_none

theorem handleBucketDeleteConfirmNameChanged_keysKept (h : app.KeysFrom listed) (value : Str) :
    KeysKept listed app (handleBucketDeleteConfirmNameChanged app value) := by
  unfold handleBucketDeleteConfirmNameChanged
  cases hmodal : app.bucketDelete with
  | none => exact .quiet h.bucketDelete_none
  | some state =>
      apply KeysKept.quiet
      exact h.of_bucket rfl rfl (h.previewed state hmodal)

theorem handleConnectTo_keysKept (surroundings : Surroundings) (h : app.KeysFrom listed)
    (name : Str) : KeysKept listed app (handleConnectTo surroundings app name) := by
  unfold handleConnectTo
  cases app.connections.find? (·.name = name) with
  | none => exact .quiet (h.of_marks rfl rfl)
  | some connection =>
      cases hkeys : surroundings.resolveKeys connection.name with
      | error e =>
          simp only [hkeys]
          exact .quiet (h.of_marks rfl rfl)
      | ok credentials =>
          simp only [hkeys, S3Client.new]
          refine .of_tasks (h.unmarked rfl rfl rfl rfl) fun task htask => ?_
          rw [List.mem_singleton.mp htask]
          rfl

theorem handleServerAutoConnect_keysKept (h : app.KeysFrom listed) (endpoint : Str)
    (noAuth : Bool) : KeysKept listed app (handleServerAutoConnect app endpoint noAuth) := by
  unfold handleServerAutoConnect
  split
  next =>
    simp only [S3Client.new]
    refine .of_tasks (h.unmarked rfl rfl rfl rfl) fun task htask => ?_
    rw [List.mem_singleton.mp htask]
    rfl
  next => exact .quiet h

theorem update_keysKept (platform : Platform) (surroundings : Surroundings)
    (h : app.KeysFrom listed) {message : Message} (hlisted : message.BringsListed listed app) :
    KeysKept listed app (app.update platform surroundings message) := by
  have helsewhere : message.connects = false → message.ofDelete = false →
      KeysKept listed app (app.update platform surroundings message) := by
    intro hconnects hdelete
    have hframe := update_elsewhere platform surroundings app hconnects hdelete
    exact .of_tasks (h.of_marks hframe.marks_eq
      (congrArg BrowsedPlace.selectedBucket hframe.keepsPlace.place_eq)) hframe.tasks
  cases message with
  | connectTo name => exact handleConnectTo_keysKept surroundings h name
  | serverAutoConnect endpoint noAuth => exact handleServerAutoConnect_keysKept h endpoint noAuth
  | openBulkDeleteModal => exact handleOpenBulkDeleteModal_keysKept h
  | closeBulkDeleteModal => exact .quiet h.bulkDelete_none
  | confirmBulkDelete => exact processNextBulkDeleteStep_keysKept h
  | bulkDeleteBatchFinished result => exact handleBulkDeleteBatchFinished_keysKept h result
  | openPrefixDeleteModal keyPrefix => exact handleOpenPrefixDeleteModal_keysKept h keyPrefix
  | closePrefixDeleteModal => exact .quiet h.prefixDelete_none
  | prefixDeleteListLoaded result => exact handlePrefixDeleteListLoaded_keysKept h result hlisted
  | confirmPrefixDelete =>
      exact processNextPrefixDeleteBatch_keysKept h fun modal hmodal => ⟨modal, hmodal, rfl, rfl⟩
  | prefixDeleteBatchFinished result => exact handlePrefixDeleteBatchFinished_keysKept h result
  | openDeleteBucketModal => exact handleOpenDeleteBucketModal_keysKept h
  | closeDeleteBucketModal => exact handleCloseDeleteBucketModal_keysKept h
  | bucketDeletePreviewLoaded bucket result =>
      exact handleBucketDeletePreviewLoaded_keysKept h bucket result hlisted
  | bucketDeleteConfirmNameChanged value =>
      exact handleBucketDeleteConfirmNameChanged_keysKept h value
  | confirmDeleteBucket => exact processNextBucketDeleteStep_keysKept h
  | bucketDeleteStepFinished result => exact handleBucketDeleteStepFinished_keysKept h result
  | _ => exact helsewhere rfl rfl

end Modals

/-! ## Messages of the browser -/

/-- The keys a message brings to the screen or to a modal were listed. -/
def BrowserMessage.BringsListed (listed : List DeliveredListing) (browser : Browser) :
    BrowserMessage → Prop
  | .app message => message.BringsListed listed browser.app
  | .objectsLoaded ⟨.ok result, asked⟩ =>
      ∀ key ∈ result.objects, ListedUnder listed asked key
  | .findComplete ⟨.ok result, asked⟩ =>
      ∀ key ∈ result.objects, ListedUnder listed asked key
  | _ => True

/-- The browser stays right, and every delete request names listed keys. -/
structure BrowserKeysKept (listed : List DeliveredListing) (browser : Browser)
    (result : Browser × List BrowserTask) : Prop where
  keys : result.1.KeysFrom listed
  tasks : ∀ task, .app task ∈ result.2 → task.NamesListed listed browser.app

section Messages

variable {listed : List DeliveredListing} {browser : Browser}

theorem Browser.KeysFrom.of_app {after : Browser} (h : browser.KeysFrom listed)
    (happ : after.app.KeysFrom listed) (hobjects : after.objects = browser.objects)
    (hfound : after.findResults = browser.findResults) : after.KeysFrom listed where
  app := happ
  shown := by
    rw [hobjects]
    exact h.shown
  found := by
    rw [hfound]
    exact h.found

theorem Browser.KeysFrom.of_screen {after : Browser} (h : browser.KeysFrom listed)
    (hscreen : after.screen = browser.screen) : after.KeysFrom listed :=
  h.of_app
    (h.app.of_marks (congrArg Screen.marks hscreen)
      (congrArg BrowsedPlace.selectedBucket (keepsPlace_of_screen hscreen).place_eq))
    (congrArg Screen.objects hscreen) (congrArg Screen.findResults hscreen)

theorem BrowserKeysKept.of_harmless {result : Browser × List BrowserTask}
    (h : result.1.KeysFrom listed) (htasks : ∀ task, .app task ∈ result.2 →
      task.deletesKeys = false) : BrowserKeysKept listed browser result :=
  ⟨h, fun task htask => AppTask.namesListed_of_not_deletes (htasks task htask)⟩

theorem BrowserKeysKept.of_keepsScreen {result : Browser × List BrowserTask}
    (h : browser.KeysFrom listed) (hkeeps : KeepsScreen browser result) :
    BrowserKeysKept listed browser result :=
  .of_harmless (h.of_screen hkeeps.screen_eq) fun task htask => by
    simpa [BrowserTask.harmless] using hkeeps.tasks _ htask

theorem BrowserKeysKept.of_document {result : Browser × List BrowserTask}
    (h : browser.KeysFrom listed)
    (hdocument : result.1.screen = browser.screen ∧
      ∀ task ∈ result.2, task.ofDocument = true) : BrowserKeysKept listed browser result :=
  .of_harmless (h.of_screen hdocument.1) fun task htask => by cases hdocument.2 _ htask

theorem BrowserKeysKept.of_edit {result : Browser × List BrowserTask}
    (h : browser.KeysFrom listed)
    (hedit : result.1.screen = browser.screen ∧
      result.1.bucketDocumentState = browser.bucketDocumentState ∧
      ∀ task ∈ result.2, task.tagWrite.isSome = true) : BrowserKeysKept listed browser result :=
  .of_harmless (h.of_screen hedit.1) fun task htask => by cases hedit.2.2 _ htask

/-- The task is one of the application's. -/
theorem mem_of_app_mem_map {tasks : List AppTask} {task : AppTask}
    (h : BrowserTask.app task ∈ tasks.map BrowserTask.app) : task ∈ tasks := by
  obtain ⟨other, hother, heq⟩ := List.mem_map.mp h
  exact BrowserTask.app.inj heq ▸ hother

theorem BrowserKeysKept.of_app {after : Browser} {result : App × List AppTask}
    {tasks : List BrowserTask} (h : KeysKept listed browser.app result)
    (hafter : after.KeysFrom listed)
    (htasks : ∀ task, .app task ∈ tasks → task ∈ result.2) :
    BrowserKeysKept listed browser (after, tasks) :=
  ⟨hafter, fun task htask => h.tasks task (htasks task htask)⟩

/-- A search that is dropped shows nothing. -/
theorem Browser.KeysFrom.of_unfound {after : Browser} (h : browser.KeysFrom listed)
    (happ : after.app.KeysFrom listed)
    (hobjects : after.objects = browser.objects ∨ after.objects = none)
    (hfound : after.findResults = none) : after.KeysFrom listed where
  app := happ
  shown := by
    intro result asked hshown
    rcases hobjects with hobjects | hobjects
    · exact h.shown result asked (hobjects ▸ hshown)
    · rw [hobjects] at hshown
      cases hshown
  found := by
    intro result asked hshown
    rw [hfound] at hshown
    cases hshown

theorem withApp_keysKept (h : browser.KeysFrom listed) {result : App × List AppTask}
    (happ : KeysKept listed browser.app result) :
    BrowserKeysKept listed browser (browser.withApp result) :=
  .of_app happ (h.of_app happ.keys rfl rfl) fun _ htask => mem_of_app_mem_map htask

theorem updateApp_keysKept (platform : Platform) (surroundings : Surroundings)
    (h : browser.KeysFrom listed) {message : Message}
    (hlisted : message.BringsListed listed browser.app) :
    BrowserKeysKept listed browser (browser.updateApp platform surroundings message) := by
  have happ := update_keysKept platform surroundings h.app hlisted
  have hmem : ∀ {tasks : List AppTask} {task : AppTask},
      BrowserTask.app task ∈ tasks.map BrowserTask.app ++ [.probe] → task ∈ tasks := by
    intro tasks task htask
    rcases List.mem_append.mp htask with htask | htask
    · exact mem_of_app_mem_map htask
    · cases List.mem_singleton.mp htask
  cases message with
  | connectTo name =>
      simp only [Browser.updateApp, Browser.handleConnectTo]
      have happ : KeysKept listed browser.app (handleConnectTo surroundings browser.app name) :=
        happ
      split
      next => exact withApp_keysKept h happ
      next =>
        split
        next => exact withApp_keysKept h happ
        next =>
          split
          next => exact withApp_keysKept h happ
          next =>
            exact .of_app happ (h.of_unfound happ.keys (.inr rfl) rfl) fun _ htask => hmem htask
  | serverAutoConnect endpoint noAuth =>
      simp only [Browser.updateApp, Browser.handleServerAutoConnect]
      have happ : KeysKept listed browser.app
          (handleServerAutoConnect browser.app endpoint noAuth) := happ
      split
      next =>
        split
        next => exact withApp_keysKept h happ
        next =>
          exact .of_app happ (h.of_unfound happ.keys (.inr rfl) rfl) fun _ htask => hmem htask
      next => exact withApp_keysKept h happ
  | bucketDeleteStepFinished result =>
      simp only [Browser.updateApp, Browser.handleBucketDeleteStepFinished]
      have happ : KeysKept listed browser.app
          (handleBucketDeleteStepFinished browser.app result) := happ
      split
      next =>
        refine .of_app happ ?_ fun _ htask => mem_of_app_mem_map htask
        split
        next => exact h.of_unfound happ.keys (.inr rfl) rfl
        next => exact h.of_app happ.keys rfl rfl
      next => exact withApp_keysKept h happ
  | _ => exact withApp_keysKept h happ

/-- Marks that were added are shown in a listing of the selected bucket. -/
theorem Browser.KeysFrom.of_marked {after : Browser} (h : browser.KeysFrom listed)
    {added : List Str} (hselected : after.app.selectedBucket = browser.app.selectedBucket)
    (hkeys : ∀ key ∈ after.app.selectedKeys, key ∈ browser.app.selectedKeys ∨ key ∈ added)
    (hdue : ∀ bucket, browser.app.selectedBucket = some bucket →
      ∀ key ∈ added, browser.Shows bucket key)
    (hbulk : after.app.bulkDelete = browser.app.bulkDelete)
    (hprefixes : after.app.prefixDelete = browser.app.prefixDelete)
    (hbucket : after.app.bucketDelete = browser.app.bucketDelete)
    (hobjects : after.objects = browser.objects)
    (hfound : after.findResults = browser.findResults) : after.KeysFrom listed := by
  refine h.of_app (h.app.of_modals ?_ hbulk hprefixes hbucket) hobjects hfound
  intro bucket hbucket key hkey
  rw [hselected] at hbucket
  rcases hkeys key hkey with hkept | hadded
  · exact h.app.marked bucket hbucket key hkept
  · exact h.of_shows (hdue bucket hbucket key hadded)

theorem handleToggleObjectSelected_keysFrom (h : browser.KeysFrom listed) (key : Str)
    (hdue : ∀ bucket, browser.app.selectedBucket = some bucket →
      ∀ marked ∈ (BrowserMessage.toggleObjectSelected key).marks browser,
        browser.Shows bucket marked) :
    (browser.handleToggleObjectSelected key).1.KeysFrom listed := by
  refine h.of_marked rfl (fun marked hmarked => ?_) hdue rfl rfl rfl rfl rfl
  simp only [Browser.handleToggleObjectSelected] at hmarked
  simp only [BrowserMessage.marks]
  split at hmarked
  next hheld => exact .inl (List.mem_of_mem_filter hmarked)
  next hfree =>
    rw [if_neg (mt List.contains_iff_mem.mp hfree)]
    exact List.mem_append.mp hmarked

theorem handleSelectAllObjects_keysFrom (h : browser.KeysFrom listed)
    (hdue : ∀ bucket, browser.app.selectedBucket = some bucket →
      ∀ marked ∈ BrowserMessage.selectAllObjects.marks browser, browser.Shows bucket marked) :
    browser.handleSelectAllObjects.1.KeysFrom listed := by
  refine h.of_marked rfl (fun marked hmarked => ?_) hdue rfl rfl rfl rfl rfl
  by_cases hheld : marked ∈ browser.app.selectedKeys
  · exact .inl hheld
  · refine .inr (List.mem_filter.mpr ⟨(Browser.mem_insertKeys.mp hmarked).resolve_left hheld, ?_⟩)
    rw [Bool.not_eq_true', ← Bool.not_eq_true, List.contains_iff_mem]
    exact hheld

theorem browserUpdate_keysKept (platform : Platform) (formats : DocumentFormats)
    (surroundings : Surroundings) (h : browser.KeysFrom listed) {message : BrowserMessage}
    (hlisted : message.BringsListed listed browser)
    (hdue : ∀ bucket, browser.app.selectedBucket = some bucket →
      ∀ key ∈ message.marks browser, browser.Shows bucket key) :
    BrowserKeysKept listed browser
      (browser.update platform formats surroundings message) := by
  have htasks : message.browses = true → ∀ task,
      .app task ∈ (browser.update platform formats surroundings message).2 →
        task.deletesKeys = false := fun hbrowses _ htask => harmless_deletesKeys
    (update_browses_harmless platform formats surroundings browser hbrowses _ htask)
  cases message with
  | app message => exact updateApp_keysKept platform surroundings h hlisted
  | selectBucket _ | navigatePrefix _ | refresh | clearFind =>
      exact .of_harmless (h.of_unfound (h.app.unmarked rfl rfl rfl rfl) (.inl rfl) rfl) (htasks rfl)
  | selectObject key =>
      refine .of_harmless ?_ (htasks rfl)
      simp only [Browser.update, Browser.handleSelectObject]
      split <;> exact h.of_app (h.app.of_marks rfl rfl) rfl rfl
  | objectInspectLoaded object result =>
      refine .of_harmless ?_ (htasks rfl)
      simp only [Browser.update, Browser.handleObjectInspectLoaded]
      split
      next => exact h
      next => exact h.of_app (h.app.of_marks rfl rfl) rfl rfl
  | objectsLoaded result =>
      refine .of_harmless ⟨h.app.of_marks rfl rfl, fun shown asked hshown => ?_, h.found⟩
        (htasks rfl)
      obtain rfl := Option.some.inj hshown
      exact hlisted
  | findComplete result =>
      refine .of_harmless ⟨h.app.of_marks rfl rfl, h.shown, fun shown asked hshown => ?_⟩
        (htasks rfl)
      obtain rfl := Option.some.inj hshown
      exact hlisted
  | find =>
      refine .of_harmless ?_ (htasks rfl)
      simp only [Browser.update]
      rcases handleFind_cases browser with hfind | ⟨_, hfind⟩
      · rw [hfind]
        exact h
      · rw [hfind]
        exact h.of_unfound (h.app.of_marks rfl rfl) (.inl rfl) rfl
  | toggleObjectSelected key =>
      exact .of_harmless (handleToggleObjectSelected_keysFrom h key hdue) (htasks rfl)
  | selectAllObjects => exact .of_harmless (handleSelectAllObjects_keysFrom h hdue) (htasks rfl)
  | clearObjectSelection =>
      exact .of_harmless (h.of_app (h.app.unmarked rfl rfl rfl rfl) rfl rfl) (htasks rfl)
  | uploadDone result | deleteDone result =>
      refine .of_harmless ?_ (htasks rfl)
      cases result with
      | error e => exact h.of_app (h.app.of_marks rfl rfl) rfl rfl
      | ok _ => exact h.of_app (h.app.of_marks rfl rfl) rfl rfl
  | createBucketDone bucket result =>
      refine .of_harmless ?_ (htasks rfl)
      cases result with
      | error e => exact h.of_app (h.app.of_marks rfl rfl) rfl rfl
      | ok _ => exact h.of_unfound (h.app.unmarked rfl rfl rfl rfl) (.inr rfl) rfl
  | clearSelection | detailLoaded _ | previewLoaded _ | versionsLoaded _ | tagsLoaded _
  | bucketTagsLoaded _ =>
      exact .of_harmless (h.of_app (h.app.of_marks rfl rfl) rfl rfl) (htasks rfl)
  | bucketDocumentLoaded _ _ | openBucketDocumentEditor _ | cancelBucketDocumentEditor _
  | bucketDocumentEdited _ _ | saveBucketDocument _ | bucketDocumentSaved _ _
  | bucketDocumentDeleted _ _ =>
      exact .of_document h (update_document_screen platform formats surroundings browser rfl)
  | addTag | removeTag _ | addBucketTag | removeBucketTag _ =>
      exact .of_edit h (update_edit_screen platform formats surroundings browser rfl)
  | _ => exact .of_keepsScreen h (update_keepsScreen platform formats surroundings browser rfl)

end Messages

/-! ## Runs -/

section Runs

variable {world : BrowserWorld} {listed : List DeliveredListing}

/-- A list under its own request. -/
theorem listedUnder_of_mem {request : ListingRequest} {keys : List Str}
    (h : ⟨request, keys⟩ ∈ listed) : ∀ key ∈ keys, ListedUnder listed request key :=
  fun _ hkey => ⟨⟨request, keys⟩, h, rfl, hkey⟩

/-- What a task of the application brings was listed by the task. -/
theorem appTask_bringsListed {request : BrowserRequest} {replies : BrowserReplies} {app : App}
    {task : AppTask} {message : Message} (htask : request.task = .app task)
    (hmessage : task.message replies.toReplies = some message)
    (hlisted : request.listings replies ⊆ listed)
    (hlists : ∀ client bucket keyPrefix, task = .listPrefix client bucket keyPrefix →
      ∀ keys, replies.keys = .ok keys → keys ≠ [] → ∀ modal, app.prefixDelete = some modal →
        modal.bucket = bucket ∧ modal.keyPrefix = keyPrefix) :
    message.BringsListed listed app := by
  cases task with
  | listPrefix client bucket keyPrefix =>
      obtain rfl := Option.some.inj hmessage
      cases hkeys : replies.keys with
      | error e => trivial
      | ok keys =>
          intro modal hmodal key hkey
          obtain ⟨hbucket, hprefixes⟩ := hlists client bucket keyPrefix rfl keys hkeys
            (List.ne_nil_of_mem hkey) modal hmodal
          rw [hbucket, hprefixes]
          refine listedUnder_of_mem (hlisted ?_) key hkey
          simp [BrowserRequest.listings, htask, hkeys]
  | previewBucket client bucket =>
      obtain rfl := Option.some.inj hmessage
      cases hkeys : replies.keys with
      | error e => trivial
      | ok keys =>
          intro key hkey
          refine ⟨⟨bucket, []⟩, rfl, listedUnder_of_mem (hlisted ?_) key hkey⟩
          simp [BrowserRequest.listings, htask, hkeys]
  | fetchBuckets _ | fetchObjects _ _ _ => cases hmessage
  | runSync spec clients =>
      obtain rfl := Option.some.inj hmessage
      cases spec.intoTask (clients.bind fun _ => replies.done) <;> trivial
  | _ =>
      obtain rfl := Option.some.inj hmessage
      trivial

/-- A search finds keys of its listing. -/
theorem mem_of_found {result found : ListObjectsResult} {pattern key : Str}
    (hfound : result.found pattern = some found) (hkey : key ∈ found.objects) :
    key ∈ result.objects := by
  unfold ListObjectsResult.found at hfound
  split at hfound
  next =>
    obtain rfl := Option.some.inj hfound
    exact List.mem_of_mem_filter hkey
  next => cases hfound

/-- What a task brings was listed by the task. -/
theorem request_bringsListed {request : BrowserRequest} {replies : BrowserReplies}
    {browser : Browser} {message : BrowserMessage}
    (hmessage : request.message replies = some message)
    (hlisted : request.listings replies ⊆ listed)
    (hlists : ∀ client bucket keyPrefix,
      request.task = .app (.listPrefix client bucket keyPrefix) →
      ∀ keys, replies.keys = .ok keys → keys ≠ [] →
        ∀ modal, browser.app.prefixDelete = some modal →
          modal.bucket = bucket ∧ modal.keyPrefix = keyPrefix) :
    message.BringsListed listed browser := by
  unfold BrowserRequest.message at hmessage
  split at hmessage
  case h_2 client bucket keyPrefix htask =>
    obtain rfl := Option.some.inj hmessage
    cases hlisting : replies.listing with
    | error e => trivial
    | ok result =>
        refine listedUnder_of_mem (hlisted ?_)
        simp [BrowserRequest.listings, htask, hlisting]
  case h_3 task _ _ htask =>
    obtain ⟨sent, hsent, rfl⟩ := Option.map_eq_some_iff.mp hmessage
    exact appTask_bringsListed htask hsent hlisted fun client bucket keyPrefix heq =>
      hlists client bucket keyPrefix (heq ▸ htask)
  case h_5 client place pattern htask =>
    split at hmessage
    next e hlisting =>
      obtain rfl := Option.some.inj hmessage
      trivial
    next result hlisting =>
      obtain ⟨found, hfound, rfl⟩ := Option.map_eq_some_iff.mp hmessage
      intro key hkey
      refine listedUnder_of_mem (hlisted ?_) key (mem_of_found hfound hkey)
      simp [BrowserRequest.listings, htask, hlisting]
  all_goals
    obtain rfl := Option.some.inj hmessage
    trivial

/-- Where the lists that arrive are due, every message brings listed keys. -/
theorem received_bringsListed {event : BrowserEvent} {surroundings : Surroundings}
    {message : BrowserMessage} (hdue : world.KeysDue event)
    (hreceived : world.received event = some (surroundings, message)) :
    message.BringsListed (world.listedAfter event) world.browser := by
  cases event with
  | user _ sent =>
      simp only [BrowserWorld.received] at hreceived
      split at hreceived
      next => cases hreceived
      next hsent =>
        obtain ⟨-, rfl⟩ := Prod.mk.inj (Option.some.inj hreceived)
        cases sent with
        | app message => cases message <;> trivial
        | _ => trivial
  | deliver _ index replies =>
      obtain ⟨request, hrequest, hmessage⟩ := Option.bind_eq_some_iff.mp hreceived
      obtain ⟨sent, hsent, heq⟩ := Option.map_eq_some_iff.mp hmessage
      obtain ⟨-, rfl⟩ := Prod.mk.inj heq
      refine request_bringsListed hsent ?_ fun client bucket keyPrefix htask =>
        hdue.lists _ index replies request rfl hrequest client bucket keyPrefix htask
      intro listing hlisting
      simp only [BrowserWorld.listedAfter, hrequest]
      exact List.mem_append_right _ hlisting

theorem listed_subset_listedAfter (world : BrowserWorld) (event : BrowserEvent) :
    world.listed ⊆ world.listedAfter event := by
  cases event with
  | user _ _ => exact List.Subset.refl _
  | deliver _ index replies =>
      simp only [BrowserWorld.listedAfter]
      split
      next => exact List.subset_append_left _ _
      next => exact List.Subset.refl _

/-- One step keeps the invariant, and its delete requests name listed keys. -/
theorem step_keysFrom (platform : Platform) (formats : DocumentFormats)
    (h : world.browser.KeysFrom world.listed) {event : BrowserEvent}
    (hdue : world.KeysDue event) :
    (world.step platform formats event).browser.KeysFrom
        (world.step platform formats event).listed ∧
      world.DeletesListed platform formats event := by
  have hmono := h.mono (listed_subset_listedAfter world event)
  rw [step_browser, step_listed]
  unfold BrowserWorld.DeletesListed BrowserWorld.handle
  cases hreceived : world.received event with
  | none => exact ⟨hmono, fun _ htask => by cases htask⟩
  | some pair =>
      obtain ⟨surroundings, message⟩ := pair
      have hkept := browserUpdate_keysKept platform formats surroundings hmono
        (received_bringsListed hdue hreceived) (hdue.marks surroundings message hreceived)
      exact ⟨hkept.keys, hkept.tasks⟩

theorem start_keysFrom (connections : List Connection) (serverConfig : ServerConfig)
    (startup : StartupOptions) (server : TagStore) (listed : List DeliveredListing) :
    (BrowserWorld.start connections serverConfig startup server).browser.KeysFrom listed := by
  simp only [BrowserWorld.start, issueAll_browser]
  refine ⟨⟨?_, ?_, ?_, ?_⟩, ?_, ?_⟩
  · intro bucket hbucket
    cases hbucket
  · intro modal hmodal
    cases hmodal
  · intro modal hmodal
    cases hmodal
  · intro modal hmodal
    cases hmodal
  · intro result asked hshown
    cases hshown
  · intro result asked hshown
    cases hshown

/-- In a run in which keys are marked in listings of the selected bucket and the list of
a prefix modal is its own, every delete request names keys that were listed in its
bucket, and under its prefix. -/
theorem deletes_listed (platform : Platform) (formats : DocumentFormats)
    (connections : List Connection) (serverConfig : ServerConfig) (startup : StartupOptions)
    (server : TagStore) {events : List BrowserEvent}
    (hdue : Along (BrowserWorld.step platform formats) BrowserWorld.KeysDue
      (BrowserWorld.start connections serverConfig startup server) events) :
    Along (BrowserWorld.step platform formats) (BrowserWorld.DeletesListed platform formats)
      (BrowserWorld.start connections serverConfig startup server) events := by
  rw [along_iff_transitions]
  intro transition htransition
  obtain ⟨hkeys, hok, -⟩ := transitions_invariant
    (fun world : BrowserWorld => world.browser.KeysFrom world.listed)
    (fun _ _ h hok => (step_keysFrom platform formats h hok).1)
    (start_keysFrom connections serverConfig startup server _) hdue htransition
  exact (step_keysFrom platform formats hkeys hok).2

end Runs

/-! ## Marking in a fresh and in a stale listing -/

/-- Two objects are listed. -/
def twoListed : BrowserReplies :=
  { emptyBrowserReplies with listing := .ok ⟨["a".toList, "b".toList], [], false⟩ }

/-- The user marks what was listed and deletes it. -/
def freshListing : List BrowserEvent :=
  [.user calm (.selectBucket "data".toList),
    .deliver calm 0 twoListed,
    .user calm .selectAllObjects,
    .user calm (.app .openBulkDeleteModal),
    .user calm (.app .confirmBulkDelete)]

/-- A message of the user that marks nothing is due. -/
theorem BrowserWorld.KeysDue.of_unmarked {world : BrowserWorld} {surroundings : Surroundings}
    {message : BrowserMessage} (hmarks : message.marks world.browser = []) :
    world.KeysDue (.user surroundings message) where
  marks := by
    intro _ sent hreceived bucket _ key hkey
    simp only [BrowserWorld.received] at hreceived
    split at hreceived
    next => cases hreceived
    next =>
      obtain ⟨-, rfl⟩ := Prod.mk.inj (Option.some.inj hreceived)
      rw [hmarks] at hkey
      cases hkey
  lists := by
    intro _ _ _ _ hdeliver
    cases hdeliver

theorem deletes_listed_fresh :
    Along (BrowserWorld.step .unix unreadable) (BrowserWorld.DeletesListed .unix unreadable)
      unconnectedBrowser freshListing := by
  refine deletes_listed .unix unreadable [] noServer ⟨none, none⟩ (fun _ _ => ⟨∅, 0⟩)
    ⟨.of_unmarked rfl, ⟨?_, ?_⟩, ⟨?_, ?_⟩, .of_unmarked rfl, .of_unmarked rfl, trivial⟩
  · intro _ message hreceived _ _ key hkey
    obtain ⟨-, rfl⟩ := Prod.mk.inj (Option.some.inj hreceived)
    cases hkey
  · intro _ _ _ request hdeliver hrequest client bucket keyPrefix htask
    cases hdeliver
    obtain rfl := Option.some.inj hrequest
    cases htask
  · intro _ message hreceived bucket hbucket key hkey
    obtain ⟨-, rfl⟩ := Prod.mk.inj (Option.some.inj hreceived)
    obtain rfl := Option.some.inj hbucket
    refine ⟨⟨["a".toList, "b".toList], [], false⟩, ⟨"data".toList, []⟩, .inl rfl, rfl, ?_⟩
    rcases List.mem_append.mp (List.mem_of_mem_filter hkey) with hkey | hkey
    · exact List.mem_of_mem_filter hkey
    · cases hkey
  · intro _ _ _ _ hdeliver
    cases hdeliver

/-- The user selects a bucket, then another one; while the listing of the second is still
loading, all objects of the first are marked and deleted in the second. -/
def staleListing : List BrowserEvent :=
  [.user calm (.selectBucket "old".toList),
    .deliver calm 0 twoListed,
    .user calm (.selectBucket "new".toList),
    .user calm .selectAllObjects,
    .user calm (.app .openBulkDeleteModal),
    .user calm (.app .confirmBulkDelete)]

/-- Keys of the first bucket are deleted in the second, which was never listed. -/
theorem stale_keys_deleted :
    ¬ Along (BrowserWorld.step .unix unreadable)
      (BrowserWorld.DeletesListed .unix unreadable) unconnectedBrowser staleListing := by
  intro h
  have hissued : AppTask.NamesListed [⟨⟨"old".toList, []⟩, ["a".toList, "b".toList]⟩] _
      (.deleteBulk fallbackClient "new".toList ["a".toList, "b".toList]) :=
    h.2.2.2.2.2.1 _ List.mem_cons_self
  obtain ⟨request, hbucket, listing, hlisting, hrequest, -⟩ :=
    hissued "a".toList List.mem_cons_self
  rw [List.mem_singleton.mp hlisting] at hrequest
  rw [← hrequest] at hbucket
  exact absurd hbucket (by decide)

end AbixioUi
