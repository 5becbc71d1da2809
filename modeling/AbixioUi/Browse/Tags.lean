import AbixioUi.Browse.Shown

/-! # Edits of tags

An edit writes the whole map again, made of the copy the browser holds. The other tags
on the server survive where that copy is current. No handler checks that it is.
-/

namespace AbixioUi

open Foundation

/-! ## Edits -/

/-- An edit of one tag: what carries the tag, its key, and the copy the edit works on. -/
structure TagEdit where
  target : TagTarget
  key : Str
  held : Option (Traced TagRead (Except String Tags))

def Browser.objectTagEdit (browser : Browser) (key : Str) : Option TagEdit :=
  browser.app.currentSelectedObject.map fun object => ⟨.object object, key, browser.objectTags⟩

def Browser.bucketTagEdit (browser : Browser) (key : Str) : Option TagEdit :=
  browser.app.selectedBucket.map fun bucket => ⟨.bucket bucket, key, browser.bucketTags⟩

/-- The edit a message makes. An empty key is refused, and so is an eleventh tag of an
object. -/
def Browser.tagEdit (browser : Browser) : BrowserMessage → Option TagEdit
  | .addTag =>
      let key := trim browser.editingTagKey
      let tags := heldTags browser.objectTags
      if key = [] ∨ (10 ≤ tags.keys.length ∧ key ∉ tags) then none
      else browser.objectTagEdit key
  | .removeTag tagKey => browser.objectTagEdit tagKey
  | .addBucketTag =>
      let key := trim browser.bucketTagKey
      if key = [] then none else browser.bucketTagEdit key
  | .removeBucketTag tagKey => browser.bucketTagEdit tagKey
  | _ => none

/-- Where the tags on the servers change at all, the event is an edit of this tag. -/
def BrowserWorld.KeepsTags (platform : Platform) (formats : DocumentFormats)
    (world : BrowserWorld) (event : BrowserEvent) : Prop :=
  ∀ endpoint target key,
    ((world.step platform formats event).server endpoint target).tags.lookup key ≠
      (world.server endpoint target).tags.lookup key →
    ∃ surroundings message edit, world.received event = some (surroundings, message) ∧
      world.browser.tagEdit message = some edit ∧
      endpoint = world.browser.app.client.endpoint ∧ target = edit.target ∧ key = edit.key

/-- The copy was read from this server, of this target, after the last write to it. -/
def TagEdit.Current (edit : TagEdit) (server : TagStore) (endpoint : Str) : Prop :=
  ∃ tags, edit.held =
    some ⟨.ok tags, endpoint, edit.target, (server endpoint edit.target).writes⟩

/-- The copy has the same tags as the server, the edited one aside. -/
def TagEdit.Agrees (edit : TagEdit) (server : TagStore) (endpoint : Str) : Prop :=
  ∀ other, other ≠ edit.key →
    (Browser.heldTags edit.held).lookup other = (server endpoint edit.target).tags.lookup other

/-- Every edit works on a current copy, or on one that happens to have the same tags. -/
def BrowserWorld.EditsDue (world : BrowserWorld) (event : BrowserEvent) : Prop :=
  ∀ surroundings message edit, world.received event = some (surroundings, message) →
    world.browser.tagEdit message = some edit →
    edit.Current world.server world.browser.app.client.endpoint ∨
      edit.Agrees world.server world.browser.app.client.endpoint

/-! ## What an edit writes -/

/-- An edit writes its target once, and keeps every tag of the copy but the edited one. -/
def TagEdit.WrittenBy (edit : TagEdit) (endpoint : Str) (tasks : List BrowserTask) : Prop :=
  ∃ task tags, tasks = [task] ∧ task.tagWrite = some ⟨endpoint, edit.target, tags⟩ ∧
    ∀ other, other ≠ edit.key → tags.lookup other = (Browser.heldTags edit.held).lookup other

section Writes

variable {browser : Browser}

theorem lookup_of_no_keys {tags : Tags} (h : tags.keys = []) (key : Str) :
    tags.lookup key = none := by
  rw [AList.lookup_eq_none, AList.mem_keys, h]
  exact List.not_mem_nil

theorem insert_keeps (tags : Tags) (key value : Str) :
    ∀ other, other ≠ key → (tags.insert key value).lookup other = tags.lookup other :=
  fun _ hother => AList.lookup_insert_ne hother

theorem erase_keeps (tags : Tags) (key : Str) :
    ∀ other, other ≠ key → (tags.erase key).lookup other = tags.lookup other :=
  fun _ hother => AList.lookup_erase_ne hother

/-- Deleting all tags is writing the empty map. -/
theorem erase_last_keeps {tags : Tags} {key : Str} (h : (tags.erase key).keys = []) :
    ∀ other, other ≠ key → (∅ : Tags).lookup other = tags.lookup other := by
  intro other hother
  rw [AList.lookup_empty, ← erase_keeps tags key other hother, lookup_of_no_keys h]

theorem handleAddTag_written {edit : TagEdit} (h : browser.tagEdit .addTag = some edit) :
    edit.WrittenBy browser.app.client.endpoint browser.handleAddTag.2 := by
  simp only [Browser.tagEdit] at h
  unfold Browser.handleAddTag
  simp only
  split at h
  next => cases h
  next hissued =>
    obtain ⟨hkey, hlimit⟩ := not_or.mp hissued
    obtain ⟨object, hobject, rfl⟩ := Option.map_eq_some_iff.mp h
    simp only [hkey, hlimit, hobject, if_false]
    exact ⟨_, _, rfl, rfl, insert_keeps _ _ _⟩

theorem handleRemoveTag_written {edit : TagEdit} {tagKey : Str}
    (h : browser.tagEdit (.removeTag tagKey) = some edit) :
    edit.WrittenBy browser.app.client.endpoint (browser.handleRemoveTag tagKey).2 := by
  obtain ⟨object, hobject, rfl⟩ := Option.map_eq_some_iff.mp h
  simp only [Browser.handleRemoveTag, hobject]
  split
  next hlast => exact ⟨_, _, rfl, rfl, erase_last_keeps hlast⟩
  next => exact ⟨_, _, rfl, rfl, erase_keeps _ _⟩

theorem handleAddBucketTag_written {edit : TagEdit}
    (h : browser.tagEdit .addBucketTag = some edit) :
    edit.WrittenBy browser.app.client.endpoint browser.handleAddBucketTag.2 := by
  simp only [Browser.tagEdit] at h
  unfold Browser.handleAddBucketTag
  simp only
  split at h
  next => cases h
  next hkey =>
    obtain ⟨bucket, hbucket, rfl⟩ := Option.map_eq_some_iff.mp h
    simp only [hkey, hbucket, if_false]
    exact ⟨_, _, rfl, rfl, insert_keeps _ _ _⟩

theorem handleRemoveBucketTag_written {edit : TagEdit} {tagKey : Str}
    (h : browser.tagEdit (.removeBucketTag tagKey) = some edit) :
    edit.WrittenBy browser.app.client.endpoint (browser.handleRemoveBucketTag tagKey).2 := by
  obtain ⟨bucket, hbucket, rfl⟩ := Option.map_eq_some_iff.mp h
  simp only [Browser.handleRemoveBucketTag, hbucket]
  split
  next hlast => exact ⟨_, _, rfl, rfl, erase_last_keeps hlast⟩
  next => exact ⟨_, _, rfl, rfl, erase_keeps _ _⟩

theorem update_written (platform : Platform) (formats : DocumentFormats)
    (surroundings : Surroundings) {message : BrowserMessage} {edit : TagEdit}
    (h : browser.tagEdit message = some edit) :
    edit.WrittenBy browser.app.client.endpoint
      (browser.update platform formats surroundings message).2 := by
  cases message with
  | addTag => exact handleAddTag_written h
  | removeTag tagKey => exact handleRemoveTag_written h
  | addBucketTag => exact handleAddBucketTag_written h
  | removeBucketTag tagKey => exact handleRemoveBucketTag_written h
  | _ => cases h

/-- An edit that is refused, or has nothing to write to, starts no task. -/
theorem update_unedited (platform : Platform) (formats : DocumentFormats)
    (surroundings : Surroundings) {message : BrowserMessage} (hedits : message.editsTags = true)
    (h : browser.tagEdit message = none) :
    (browser.update platform formats surroundings message).2 = [] := by
  cases message with
  | addTag =>
      simp only [Browser.tagEdit, Browser.update, Browser.handleAddTag] at h ⊢
      split
      next => rfl
      next hkey =>
        split
        next => rfl
        next hlimit =>
          rw [if_neg (not_or.mpr ⟨hkey, hlimit⟩)] at h
          simp only [Option.map_eq_none_iff.mp h]
  | removeTag tagKey =>
      simp only [Browser.update, Browser.handleRemoveTag, Option.map_eq_none_iff.mp h]
  | addBucketTag =>
      simp only [Browser.tagEdit, Browser.update, Browser.handleAddBucketTag] at h ⊢
      split
      next => rfl
      next hkey =>
        rw [if_neg hkey] at h
        simp only [Option.map_eq_none_iff.mp h]
  | removeBucketTag tagKey =>
      simp only [Browser.update, Browser.handleRemoveBucketTag, Option.map_eq_none_iff.mp h]
  | _ => cases hedits

end Writes

/-! ## Copies -/

/-- The browser holds this copy of the tags of the object or the bucket. -/
def Browser.Holds (browser : Browser) (copy : Traced TagRead (Except String Tags)) : Prop :=
  browser.objectTags = some copy ∨ browser.bucketTags = some copy

/-- The copy a result delivers. -/
def BrowserMessage.tagCopy : BrowserMessage → Option (Traced TagRead (Except String Tags))
  | .tagsLoaded result | .bucketTagsLoaded result => some result
  | _ => none

/-- Copies are dropped, kept or delivered, and no tags are written. -/
structure NoTagEdit (browser : Browser) (message : BrowserMessage)
    (result : Browser × List BrowserTask) : Prop where
  copies : ∀ copy, result.1.Holds copy → browser.Holds copy ∨ message.tagCopy = some copy
  tasks : ∀ task ∈ result.2, task.tagWrite = none

section Copies

variable {browser : Browser} {message : BrowserMessage}

theorem Browser.Holds.of_screen {after : Browser} {copy : Traced TagRead (Except String Tags)}
    (h : after.Holds copy) (hscreen : after.screen = browser.screen) : browser.Holds copy := by
  have hpanel : after.objectTags = browser.objectTags :=
    congrArg (fun screen : Screen => screen.panel.tags) hscreen
  have hbucket : after.bucketTags = browser.bucketTags := congrArg Screen.bucketTags hscreen
  exact h.imp hpanel.symm.trans hbucket.symm.trans

/-- Each of the two copies stays or is dropped. -/
theorem NoTagEdit.of_copies {result : Browser × List BrowserTask}
    (hobject : result.1.objectTags = browser.objectTags ∨ result.1.objectTags = none)
    (hbucket : result.1.bucketTags = browser.bucketTags ∨ result.1.bucketTags = none)
    (htasks : ∀ task ∈ result.2, task.tagWrite = none) : NoTagEdit browser message result := by
  refine ⟨fun copy hcopy => .inl ?_, htasks⟩
  rcases hcopy with hcopy | hcopy
  · rcases hobject with h | h
    · exact .inl (h.symm.trans hcopy)
    · cases h.symm.trans hcopy
  · rcases hbucket with h | h
    · exact .inr (h.symm.trans hcopy)
    · cases h.symm.trans hcopy

theorem NoTagEdit.kept {after : Browser} {tasks : List BrowserTask}
    (hobject : after.objectTags = browser.objectTags)
    (hbucket : after.bucketTags = browser.bucketTags)
    (htasks : ∀ task ∈ tasks, task.tagWrite = none) :
    NoTagEdit browser message (after, tasks) :=
  .of_copies (.inl hobject) (.inl hbucket) htasks

theorem NoTagEdit.dropped {after : Browser} {tasks : List BrowserTask}
    (hobject : after.objectTags = none) (hbucket : after.bucketTags = none)
    (htasks : ∀ task ∈ tasks, task.tagWrite = none) :
    NoTagEdit browser message (after, tasks) :=
  .of_copies (.inr hobject) (.inr hbucket) htasks

theorem NoTagEdit.of_keepsScreen {result : Browser × List BrowserTask}
    (h : KeepsScreen browser result) : NoTagEdit browser message result :=
  ⟨fun _ hcopy => .inl (hcopy.of_screen h.screen_eq), fun task htask =>
    harmless_tagWrite (h.tasks task htask)⟩

theorem ofDocument_tagWrite {task : BrowserTask} (h : task.ofDocument = true) :
    task.tagWrite = none := by
  cases task with
  | putTags _ _ _ | deleteTags _ _ | putBucketTags _ _ _ | deleteBucketTags _ _ => cases h
  | _ => rfl

theorem NoTagEdit.of_document {result : Browser × List BrowserTask}
    (h : result.1.screen = browser.screen ∧ ∀ task ∈ result.2, task.ofDocument = true) :
    NoTagEdit browser message result :=
  ⟨fun _ hcopy => .inl (hcopy.of_screen h.1), fun task htask =>
    ofDocument_tagWrite (h.2 task htask)⟩

theorem no_tagWrite (task : BrowserTask) (h : task ∈ []) : task.tagWrite = none := by
  cases h

theorem appTasks_tagWrite (tasks : List AppTask) :
    ∀ task ∈ tasks.map BrowserTask.app, task.tagWrite = none := by
  intro task htask
  obtain ⟨appTask, -, rfl⟩ := List.mem_map.mp htask
  rfl

/-- The probe writes no tags either. -/
theorem probed_tagWrite (tasks : List AppTask) :
    ∀ task ∈ tasks.map BrowserTask.app ++ [.probe], task.tagWrite = none := by
  intro task htask
  rcases List.mem_append.mp htask with htask | htask
  · exact appTasks_tagWrite tasks task htask
  · rw [List.mem_singleton.mp htask]
    rfl

theorem handleConnectTo_noTagEdit (surroundings : Surroundings) (name : Str) :
    NoTagEdit browser message (browser.handleConnectTo surroundings name) := by
  unfold Browser.handleConnectTo handleConnectTo
  cases browser.app.connections.find? (·.name = name) with
  | none => exact .kept rfl rfl (appTasks_tagWrite _)
  | some connection =>
      cases hkeys : surroundings.resolveKeys connection.name with
      | error e =>
          simp only [hkeys]
          exact .kept rfl rfl (appTasks_tagWrite _)
      | ok credentials =>
          simp only [hkeys, S3Client.new]
          exact .dropped rfl rfl (probed_tagWrite _)

theorem handleServerAutoConnect_noTagEdit (endpoint : Str) (noAuth : Bool) :
    NoTagEdit browser message (browser.handleServerAutoConnect endpoint noAuth) := by
  unfold Browser.handleServerAutoConnect handleServerAutoConnect
  by_cases hrunning : browser.app.serverRunning = true
  · simp only [hrunning, if_true, S3Client.new]
    exact .dropped rfl rfl (probed_tagWrite _)
  · simp only [hrunning]
    exact .kept rfl rfl (appTasks_tagWrite _)

theorem handleBucketDeleteStepFinished_noTagEdit
    (result : Except String BucketDeleteStepResult) :
    NoTagEdit browser message (browser.handleBucketDeleteStepFinished result) := by
  unfold Browser.handleBucketDeleteStepFinished
  simp only
  split
  next =>
    split
    next => exact .dropped rfl rfl (appTasks_tagWrite _)
    next => exact .kept rfl rfl (appTasks_tagWrite _)
  next => exact .kept rfl rfl (appTasks_tagWrite _)

theorem updateApp_noTagEdit (platform : Platform) (surroundings : Surroundings)
    (sent : Message) :
    NoTagEdit browser message (browser.updateApp platform surroundings sent) := by
  cases sent with
  | connectTo name => exact handleConnectTo_noTagEdit surroundings name
  | serverAutoConnect endpoint noAuth => exact handleServerAutoConnect_noTagEdit endpoint noAuth
  | bucketDeleteStepFinished result => exact handleBucketDeleteStepFinished_noTagEdit result
  | _ => exact .kept rfl rfl (appTasks_tagWrite _)

/-- Every other message drops or keeps the copies, or delivers one. -/
theorem update_noTagEdit (platform : Platform) (formats : DocumentFormats)
    (surroundings : Surroundings) (hedits : message.editsTags = false) :
    NoTagEdit browser message (browser.update platform formats surroundings message) := by
  have htasks : message.browses = true →
      ∀ task ∈ (browser.update platform formats surroundings message).2, task.tagWrite = none :=
    fun hbrowses task htask => harmless_tagWrite
      (update_browses_harmless platform formats surroundings browser hbrowses task htask)
  cases message with
  | addTag | removeTag _ | addBucketTag | removeBucketTag _ => cases hedits
  | app sent => exact updateApp_noTagEdit platform surroundings sent
  | selectBucket name => exact .of_copies (.inr rfl) (.inr rfl) (htasks rfl)
  | navigatePrefix keyPrefix => exact .of_copies (.inr rfl) (.inl rfl) (htasks rfl)
  | selectObject key =>
      refine .of_copies (.inr ?_) (.inl ?_) (htasks rfl)
      all_goals
        simp only [Browser.update, Browser.handleSelectObject]
        split <;> rfl
  | clearSelection => exact .of_copies (.inr rfl) (.inl rfl) (htasks rfl)
  | uploadDone result =>
      refine .of_copies (.inl ?_) (.inl ?_) (htasks rfl)
      all_goals cases result <;> rfl
  | deleteDone result =>
      refine .of_copies ?_ (.inl ?_) (htasks rfl)
      · cases result with
        | error e => exact .inl rfl
        | ok _ => exact .inr rfl
      · cases result <;> rfl
  | createBucketDone bucket result =>
      refine .of_copies (.inl ?_) (.inl ?_) (htasks rfl)
      all_goals cases result <;> rfl
  | find =>
      refine .of_copies (.inl ?_) (.inl ?_) (htasks rfl)
      all_goals
        simp only [Browser.update]
        rcases handleFind_cases browser with hfind | ⟨_, hfind⟩ <;> rw [hfind]
  | objectInspectLoaded object result =>
      refine .of_copies (.inl ?_) (.inl ?_) (htasks rfl)
      all_goals
        simp only [Browser.update, Browser.handleObjectInspectLoaded]
        split <;> rfl
  | refresh | objectsLoaded _ | findComplete _ | clearFind | toggleObjectSelected _
  | selectAllObjects | clearObjectSelection | detailLoaded _ | previewLoaded _ | versionsLoaded _ =>
      exact .of_copies (.inl rfl) (.inl rfl) (htasks rfl)
  | tagsLoaded result =>
      refine ⟨fun copy hcopy => ?_, htasks rfl⟩
      rcases hcopy with hcopy | hcopy
      · exact .inr hcopy
      · exact .inl (.inr hcopy)
  | bucketTagsLoaded result =>
      refine ⟨fun copy hcopy => ?_, htasks rfl⟩
      rcases hcopy with hcopy | hcopy
      · exact .inl (.inl hcopy)
      · exact .inr hcopy
  | bucketDocumentLoaded _ _ | openBucketDocumentEditor _ | cancelBucketDocumentEditor _
  | bucketDocumentEdited _ _ | saveBucketDocument _ | bucketDocumentSaved _ _
  | bucketDocumentDeleted _ _ =>
      exact .of_document (update_document_screen platform formats surroundings browser rfl)
  | _ => exact .of_keepsScreen (update_keepsScreen platform formats surroundings browser rfl)

end Copies

/-! ## Copies lie in the past of the server -/

/-- The cell is not newer than the other, and is the same where it is as new. -/
structure TagCell.PastOf (cell now : TagCell) : Prop where
  writes_le : cell.writes ≤ now.writes
  tags_eq : cell.writes = now.writes → cell.tags = now.tags

section Past

variable {store : TagStore}

theorem TagCell.PastOf.refl (cell : TagCell) : cell.PastOf cell := ⟨le_rfl, fun _ => rfl⟩

theorem TagCell.PastOf.trans {first second third : TagCell} (h : first.PastOf second)
    (h' : second.PastOf third) : first.PastOf third where
  writes_le := h.writes_le.trans h'.writes_le
  tags_eq := by
    intro heq
    have hle := h.writes_le
    have hle' := h'.writes_le
    exact (h.tags_eq (by omega)).trans (h'.tags_eq (by omega))

/-- A server moves on when it serves a task. -/
theorem serve_pastOf (task : BrowserTask) (endpoint : Str) (target : TagTarget) :
    (store endpoint target).PastOf (store.serve task endpoint target) := by
  cases hwrite : task.tagWrite with
  | none =>
      simp only [TagStore.serve, hwrite]
      exact .refl _
  | some write =>
      simp only [TagStore.serve, hwrite, TagStore.write]
      split
      next => exact ⟨Nat.le_succ _, fun h => absurd h (Nat.ne_of_lt (Nat.lt_succ_self _))⟩
      next => exact .refl _

theorem look_pastOf (task read : BrowserTask) :
    (store.look read).PastOf ((store.serve task).look read) := by
  cases read with
  | fetchTags client object => exact serve_pastOf task client.endpoint (.object object)
  | fetchBucketTags client bucket => exact serve_pastOf task client.endpoint (.bucket bucket)
  | _ => exact .refl _

/-- The copies, in the browser and under way, are of earlier states of the servers. -/
structure BrowserWorld.CopiesPast (world : BrowserWorld) : Prop where
  requests : ∀ request ∈ world.inFlight,
    request.cell.PastOf (world.server.look request.task)
  copies : ∀ tags read, world.browser.Holds ⟨.ok tags, read⟩ →
    TagCell.PastOf ⟨tags, read.writes⟩ (world.server read.endpoint read.target)

variable {world : BrowserWorld}

theorem BrowserWorld.CopiesPast.issue (h : world.CopiesPast) (task : BrowserTask) :
    (world.issue task).CopiesPast where
  requests := by
    intro request hrequest
    rcases List.mem_append.mp hrequest with hold | hnew
    · exact (h.requests request hold).trans (look_pastOf task request.task)
    · rw [List.mem_singleton.mp hnew]
      exact look_pastOf task task
  copies := by
    intro tags read hholds
    exact (h.copies tags read hholds).trans (serve_pastOf task read.endpoint read.target)

theorem BrowserWorld.CopiesPast.issueAll (h : world.CopiesPast) (tasks : List BrowserTask) :
    (tasks.foldl .issue world).CopiesPast := by
  induction tasks generalizing world with
  | nil => exact h
  | cons task tasks ih => exact ih (h.issue task)

/-- A copy that is delivered is what its request read. -/
theorem request_tagCopy {request : BrowserRequest} {replies : BrowserReplies}
    {message : BrowserMessage} {tags : Tags} {read : TagRead}
    (h : request.message replies = some message)
    (hcopy : message.tagCopy = some ⟨.ok tags, read⟩) :
    request.cell = ⟨tags, read.writes⟩ ∧
      ∀ store : TagStore, store.look request.task = store read.endpoint read.target := by
  obtain ⟨task, cell⟩ := request
  cases task with
  | fetchTags client object | fetchBucketTags client bucket =>
      obtain rfl := Option.some.inj h
      cases hdone : replies.done with
      | error e => simp [BrowserMessage.tagCopy, hdone, Except.map] at hcopy
      | ok _ =>
          simp only [BrowserMessage.tagCopy, hdone, Except.map, Option.some.injEq,
            Traced.mk.injEq, Except.ok.injEq] at hcopy
          obtain ⟨rfl, rfl⟩ := hcopy
          exact ⟨rfl, fun _ => rfl⟩
  | app appTask =>
      simp only [BrowserRequest.message] at h
      split at h
      next =>
        obtain rfl := Option.some.inj h
        cases hcopy
      next =>
        obtain rfl := Option.some.inj h
        cases hcopy
      next =>
        obtain ⟨sent, -, rfl⟩ := Option.map_eq_some_iff.mp h
        cases hcopy
      -- The other tasks are not of the application.
      all_goals next htask => cases htask
  | find client place pattern =>
      simp only [BrowserRequest.message] at h
      split at h
      next =>
        obtain rfl := Option.some.inj h
        cases hcopy
      next =>
        obtain ⟨found, -, rfl⟩ := Option.map_eq_some_iff.mp h
        cases hcopy
  | _ =>
      obtain rfl := Option.some.inj h
      cases hcopy

theorem received_tagCopy {event : BrowserEvent} {surroundings : Surroundings}
    {message : BrowserMessage} {tags : Tags} {read : TagRead}
    (h : world.received event = some (surroundings, message))
    (hcopy : message.tagCopy = some ⟨.ok tags, read⟩) :
    ∃ request ∈ world.inFlight, request.cell = ⟨tags, read.writes⟩ ∧
      ∀ store : TagStore, store.look request.task = store read.endpoint read.target := by
  have hresult : message.isResult = true := by
    cases message with
    | tagsLoaded _ | bucketTagsLoaded _ => rfl
    | _ => cases hcopy
  obtain ⟨index, replies, request, -, hrequest, hmessage⟩ := received_result h hresult
  exact ⟨request, List.mem_of_getElem? hrequest, request_tagCopy hmessage hcopy⟩

/-- A message delivers copies or keeps them. -/
theorem update_copies (platform : Platform) (formats : DocumentFormats)
    (surroundings : Surroundings) {browser : Browser} {message : BrowserMessage}
    {copy : Traced TagRead (Except String Tags)}
    (h : (browser.update platform formats surroundings message).1.Holds copy) :
    browser.Holds copy ∨ message.tagCopy = some copy := by
  cases hedits : message.editsTags with
  | false => exact (update_noTagEdit platform formats surroundings hedits).copies copy h
  | true =>
      exact .inl (h.of_screen (update_edit_screen platform formats surroundings browser hedits).1)

theorem step_copiesPast (platform : Platform) (formats : DocumentFormats) (h : world.CopiesPast)
    (event : BrowserEvent) : (world.step platform formats event).CopiesPast := by
  refine BrowserWorld.CopiesPast.issueAll ⟨?_, ?_⟩ _
  · intro request hrequest
    exact h.requests request (mem_browserRemaining hrequest)
  · intro tags read hholds
    split at hholds
    next surroundings message hreceived =>
      rcases update_copies platform formats surroundings hholds with hold | hnew
      · exact h.copies tags read hold
      · obtain ⟨request, hrequest, hcell, hlook⟩ := received_tagCopy hreceived hnew
        have hpast := h.requests request hrequest
        rwa [hcell, hlook] at hpast
    next => exact h.copies tags read hholds

theorem start_copiesPast (connections : List Connection) (serverConfig : ServerConfig)
    (startup : StartupOptions) (server : TagStore) :
    (BrowserWorld.start connections serverConfig startup server).CopiesPast := by
  refine BrowserWorld.CopiesPast.issueAll ⟨?_, ?_⟩ _
  · intro request hrequest
    cases hrequest
  · intro tags read hholds
    rcases hholds with hholds | hholds <;> cases hholds

end Past

/-! ## Runs -/

section Runs

variable {world : BrowserWorld}

theorem issueAll_server (tasks : List BrowserTask) :
    (tasks.foldl .issue world).server = tasks.foldl .serve world.server := by
  induction tasks generalizing world with
  | nil => rfl
  | cons task tasks ih => exact ih

theorem serveAll_unwritten {tasks : List BrowserTask}
    (h : ∀ task ∈ tasks, task.tagWrite = none) (store : TagStore) :
    tasks.foldl .serve store = store := by
  induction tasks generalizing store with
  | nil => rfl
  | cons task tasks ih =>
      have hserve : store.serve task = store := by
        simp only [TagStore.serve, h task List.mem_cons_self]
      rw [List.foldl_cons, hserve]
      exact ih (fun other hother => h other (List.mem_cons_of_mem _ hother)) store

theorem step_server (platform : Platform) (formats : DocumentFormats) (event : BrowserEvent) :
    (world.step platform formats event).server =
      (world.handle platform formats event).2.foldl .serve world.server := by
  simp only [BrowserWorld.step, issueAll_server]

/-- An event that edits no tag leaves the servers as they are. -/
theorem step_server_unedited (platform : Platform) (formats : DocumentFormats)
    {event : BrowserEvent}
    (h : ∀ surroundings message, world.received event = some (surroundings, message) →
      world.browser.tagEdit message = none) :
    (world.step platform formats event).server = world.server := by
  rw [step_server]
  refine serveAll_unwritten ?_ world.server
  unfold BrowserWorld.handle
  cases hreceived : world.received event with
  | none => exact no_tagWrite
  | some pair =>
      obtain ⟨surroundings, message⟩ := pair
      cases hedits : message.editsTags with
      | false => exact (update_noTagEdit platform formats surroundings hedits).tasks
      | true =>
          simp only [update_unedited platform formats surroundings hedits
            (h surroundings message hreceived)]
          exact no_tagWrite

/-- An edit writes its target. -/
theorem step_server_edited (platform : Platform) (formats : DocumentFormats)
    {event : BrowserEvent} {surroundings : Surroundings} {message : BrowserMessage}
    {edit : TagEdit} (hreceived : world.received event = some (surroundings, message))
    (hedit : world.browser.tagEdit message = some edit) :
    ∃ tags,
      (world.step platform formats event).server =
        world.server.write ⟨world.browser.app.client.endpoint, edit.target, tags⟩ ∧
      ∀ other, other ≠ edit.key →
        tags.lookup other = (Browser.heldTags edit.held).lookup other := by
  obtain ⟨task, tags, htasks, hwrite, hkeeps⟩ :=
    update_written platform formats surroundings hedit
  refine ⟨tags, ?_, hkeeps⟩
  simp only [step_server, BrowserWorld.handle, hreceived, htasks, List.foldl_cons,
    List.foldl_nil, TagStore.serve, hwrite]

theorem write_target (store : TagStore) (write : TagWrite) :
    (store.write write write.endpoint write.target).tags = write.tags := by
  simp [TagStore.write]

theorem write_elsewhere (store : TagStore) (write : TagWrite) {endpoint : Str}
    {target : TagTarget} (h : ¬ (endpoint = write.endpoint ∧ target = write.target)) :
    store.write write endpoint target = store endpoint target := by
  simp only [TagStore.write, h, if_false]

/-- A step keeps the tags exactly where the copy under every edit agrees with the server. -/
theorem step_keepsTags_iff (platform : Platform) (formats : DocumentFormats)
    (event : BrowserEvent) :
    world.KeepsTags platform formats event ↔
      ∀ surroundings message edit, world.received event = some (surroundings, message) →
        world.browser.tagEdit message = some edit →
        edit.Agrees world.server world.browser.app.client.endpoint := by
  constructor
  · intro hkeeps surroundings message edit hreceived hedit other hother
    obtain ⟨tags, hserver, htags⟩ := step_server_edited platform formats hreceived hedit
    rw [← htags other hother]
    -- A difference at another key would be a change that is not the edit's.
    by_contra hdiffers
    obtain ⟨_, _, edit', hreceived', hedit', -, -, hkey⟩ :=
      hkeeps world.browser.app.client.endpoint edit.target other (by
        rw [hserver, write_target]
        exact hdiffers)
    obtain ⟨-, rfl⟩ := Prod.mk.inj (Option.some.inj (hreceived.symm.trans hreceived'))
    obtain rfl := Option.some.inj (hedit.symm.trans hedit')
    exact hother hkey
  · intro hagrees endpoint target key hchanged
    by_cases hedits : ∃ surroundings message edit,
        world.received event = some (surroundings, message) ∧
          world.browser.tagEdit message = some edit
    · obtain ⟨surroundings, message, edit, hreceived, hedit⟩ := hedits
      obtain ⟨tags, hserver, htags⟩ := step_server_edited platform formats hreceived hedit
      rw [hserver] at hchanged
      by_cases hplace : endpoint = world.browser.app.client.endpoint ∧ target = edit.target
      · obtain ⟨rfl, rfl⟩ := hplace
        refine ⟨surroundings, message, edit, hreceived, hedit, rfl, rfl, ?_⟩
        by_contra hkey
        rw [write_target, htags key hkey] at hchanged
        exact hchanged (hagrees surroundings message edit hreceived hedit key hkey)
      · rw [write_elsewhere _ _ hplace] at hchanged
        exact absurd rfl hchanged
    · refine absurd ?_ hchanged
      rw [step_server_unedited platform formats]
      intro surroundings message hreceived
      cases hedit : world.browser.tagEdit message with
      | none => rfl
      | some edit => exact absurd ⟨surroundings, message, edit, hreceived, hedit⟩ hedits

/-- An edit works on a copy that the browser holds. -/
theorem tagEdit_holds {browser : Browser} {message : BrowserMessage} {edit : TagEdit}
    {copy : Traced TagRead (Except String Tags)} (h : browser.tagEdit message = some edit)
    (hcopy : edit.held = some copy) : browser.Holds copy := by
  have hobject : ∀ key, browser.objectTagEdit key = some edit → browser.Holds copy := by
    intro key hedit
    obtain ⟨object, -, rfl⟩ := Option.map_eq_some_iff.mp hedit
    exact .inl hcopy
  have hbucket : ∀ key, browser.bucketTagEdit key = some edit → browser.Holds copy := by
    intro key hedit
    obtain ⟨bucket, -, rfl⟩ := Option.map_eq_some_iff.mp hedit
    exact .inr hcopy
  cases message with
  | addTag =>
      simp only [Browser.tagEdit] at h
      split at h
      next => cases h
      next => exact hobject _ h
  | removeTag tagKey => exact hobject _ h
  | addBucketTag =>
      simp only [Browser.tagEdit] at h
      split at h
      next => cases h
      next => exact hbucket _ h
  | removeBucketTag tagKey => exact hbucket _ h
  | _ => cases h

/-- Nothing was written since a current copy was read. -/
theorem TagEdit.Current.agrees {message : BrowserMessage} {edit : TagEdit}
    (hpast : world.CopiesPast) (hedit : world.browser.tagEdit message = some edit)
    {endpoint : Str} (h : edit.Current world.server endpoint) :
    edit.Agrees world.server endpoint := by
  obtain ⟨tags, hheld⟩ := h
  have hsame : tags = (world.server endpoint edit.target).tags :=
    (hpast.copies _ _ (tagEdit_holds hedit hheld)).tags_eq rfl
  intro other _
  rw [hheld, ← hsame]
  rfl

theorem step_keepsTags_iff_editsDue (platform : Platform) (formats : DocumentFormats)
    (hpast : world.CopiesPast) (event : BrowserEvent) :
    world.KeepsTags platform formats event ↔ world.EditsDue event := by
  rw [step_keepsTags_iff]
  constructor
  · intro hagrees surroundings message edit hreceived hedit
    exact .inr (hagrees surroundings message edit hreceived hedit)
  · intro hdue surroundings message edit hreceived hedit
    rcases hdue surroundings message edit hreceived hedit with hcurrent | hagrees
    · exact hcurrent.agrees hpast hedit
    · exact hagrees

/-- In a run every write of tags changes only the tag that was added or removed exactly
if every edit works on a copy that was read there since the last write, or that has the
same other tags. -/
theorem tags_kept_iff (platform : Platform) (formats : DocumentFormats)
    (connections : List Connection) (serverConfig : ServerConfig) (startup : StartupOptions)
    (server : TagStore) (events : List BrowserEvent) :
    Along (BrowserWorld.step platform formats) (BrowserWorld.KeepsTags platform formats)
        (BrowserWorld.start connections serverConfig startup server) events ↔
      Along (BrowserWorld.step platform formats) BrowserWorld.EditsDue
        (BrowserWorld.start connections serverConfig startup server) events :=
  along_congr BrowserWorld.CopiesPast
    (fun _ event h => step_copiesPast platform formats h event)
    (fun _ event h => step_keepsTags_iff_editsDue platform formats h event)
    (start_copiesPast connections serverConfig startup server) events

end Runs

/-! ## A second edit before the tags are loaded again -/

/-- The bucket carries one tag. -/
def taggedServer : TagStore := fun _ target =>
  if target = .bucket "data".toList then
    ⟨(∅ : Tags).insert "team".toList "storage".toList, 0⟩
  else ⟨∅, 0⟩

/-- The tags of a bucket are loaded and the user adds two tags, the second one while the
first one is being saved. -/
def hastyEdit : List BrowserEvent :=
  [.user calm (.selectBucket "data".toList),
    .deliver calm 3 emptyBrowserReplies,
    .user calm (.bucketTagKeyChanged "stage".toList),
    .user calm .addBucketTag,
    .user calm (.bucketTagKeyChanged "owner".toList),
    .user calm .addBucketTag]

/-- The tag that was added first is gone. -/
theorem hasty_edit_loses :
    ¬ Along (BrowserWorld.step .unix unreadable) (BrowserWorld.KeepsTags .unix unreadable)
      (.start [] noServer ⟨none, none⟩ taggedServer) hastyEdit := by
  intro h
  obtain ⟨_, _, edit, hreceived, hedit, -, -, hkey⟩ :=
    h.2.2.2.2.2.1 fallbackClient.endpoint (.bucket "data".toList) "stage".toList (by decide)
  obtain ⟨-, rfl⟩ := Prod.mk.inj (Option.some.inj hreceived)
  obtain rfl := Option.some.inj hedit
  exact absurd hkey (by decide)

end AbixioUi
