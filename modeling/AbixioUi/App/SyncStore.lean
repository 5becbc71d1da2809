import AbixioUi.App.SyncItem
import AbixioUi.Foundation.Workload
import AbixioUi.Sync.DeleteAccounting
import AbixioUi.Sync.RunFinish

/-! # A sync run and the store it works on

The tasks of a run work on the stored objects while the screen waits for their results.
A task's requests take effect one at a time, at any moment before its result is delivered.
What a server or the file system answers with success has taken effect, and from this a
task that returns success has carried out all it stands for; one that fails has carried
out any part of it.
-/

namespace AbixioUi

open Foundation

universe u

variable {Content : Type u}

/-! ## What a task does -/

/-- What carrying out the item does. A server-side copy is asked of the source's server,
which reads the text of the copy source. -/
def SyncRunItem.effect (readCopySource : Str → Option (Str × Str)) (item : SyncRunItem) :
    Option (StoreOp TransferEndpoint) :=
  match item.strategy, item.source, item.destination with
  | .upload, .local path, .s3 connectionId bucket key =>
      some (.copy (.local path) (.s3 connectionId bucket key))
  | .download, .s3 connectionId bucket key, .local path =>
      some (.copy (.s3 connectionId bucket key) (.local path))
  | .serverSideCopy, .s3 connectionId sourceBucket sourceKey, .s3 _ bucket key =>
      (readCopySource (sourceBucket ++ '/' :: sourceKey)).map fun read =>
        .copy (.s3 connectionId read.1 read.2) (.s3 connectionId bucket key)
  | .clientRelay, .s3 sourceId sourceBucket sourceKey, .s3 connectionId bucket key =>
      some (.copy (.s3 sourceId sourceBucket sourceKey) (.s3 connectionId bucket key))
  | .deleteRemote, _, .s3 connectionId bucket key => some (.remove (.s3 connectionId bucket key))
  | .deleteLocal, _, .local path => some (.remove (.local path))
  | _, _, _ => none

def PendingSyncTask.operations (readCopySource : Str → Option (Str × Str)) :
    PendingSyncTask → List (StoreOp TransferEndpoint)
  | .transfer item => (item.effect readCopySource).toList
  | .deleteRemote connectionId bucket keys _ _ =>
      keys.map fun key => .remove (.s3 connectionId bucket key)
  | .deleteLocal path _ _ => [.remove (.local path)]

/-- The server takes the text of this address for the address. -/
def TransferEndpoint.ReadsBack (readCopySource : Str → Option (Str × Str)) :
    TransferEndpoint → Prop
  | .s3 _ bucket key => readCopySource (bucket ++ '/' :: key) = some (bucket, key)
  | .local _ => True

/-- The strategy chosen for two endpoints copies from the one to the other. -/
theorem effect_of_strategy {readCopySource : Str → Option (Str × Str)} {item : SyncRunItem}
    (hstrategy : determineExecutionStrategy item.source item.destination = .ok item.strategy)
    (hreads : item.source.ReadsBack readCopySource) :
    item.effect readCopySource = some (.copy item.source item.destination) := by
  unfold SyncRunItem.effect
  cases hsource : item.source with
  | «local» path =>
      cases hdestination : item.destination with
      | «local» path' => simp [hsource, hdestination, determineExecutionStrategy] at hstrategy
      | s3 connectionId bucket key =>
          have hupload : item.strategy = .upload := by
            simpa [hsource, hdestination, determineExecutionStrategy] using hstrategy.symm
          simp [hupload]
  | s3 sourceId sourceBucket sourceKey =>
      cases hdestination : item.destination with
      | «local» path =>
          have hdownload : item.strategy = .download := by
            simpa [hsource, hdestination, determineExecutionStrategy] using hstrategy.symm
          simp [hdownload]
      | s3 connectionId bucket key =>
          simp only [hsource, hdestination, determineExecutionStrategy] at hstrategy
          split at hstrategy
          next hsame =>
            have hcopy : item.strategy = .serverSideCopy := (Except.ok.inj hstrategy).symm
            rw [hsource] at hreads
            simp only [TransferEndpoint.ReadsBack] at hreads
            simp [hcopy, hreads, hsame]
          next =>
            have hrelay : item.strategy = .clientRelay := (Except.ok.inj hstrategy).symm
            simp [hrelay]

/-- Every transfer of the plan copies from its source to its destination. -/
def SyncRunPlan.Effective (readCopySource : Str → Option (Str × Str)) (runPlan : SyncRunPlan) :
    Prop :=
  ∀ item ∈ runPlan.transfers,
    item.effect readCopySource = some (.copy item.source item.destination)

/-- A task does what its items are for. -/
theorem PendingSyncTask.operations_eq {readCopySource : Str → Option (Str × Str)}
    {task : PendingSyncTask}
    (h : ∀ item ∈ task.transferItems,
      item.effect readCopySource = some (.copy item.source item.destination)) :
    task.operations readCopySource =
      task.transferItems.map (fun item => .copy item.source item.destination) ++
        task.deleteTargets.map StoreOp.remove := by
  cases task with
  | transfer item =>
      have heffect := h item (List.mem_singleton_self item)
      simp [operations, transferItems, deleteTargets, heffect]
  | deleteRemote connectionId bucket keys bytes label =>
      simp [operations, transferItems, deleteTargets, Function.comp_def]
  | deleteLocal path bytes label => rfl

/-- The tasks of a run that has handed out `n` transfers and `m` deletes do these. -/
theorem operations_perm {readCopySource : Str → Option (Str × Str)} {runPlan : SyncRunPlan}
    (heffective : runPlan.Effective readCopySource) {issued : List PendingSyncTask} {n m : Nat}
    (h : HandsOut issued (runPlan.transfers.take n) (runPlan.deletes.take m)) :
    (issued.flatMap (·.operations readCopySource)).Perm
      ((runPlan.transfers.take n).map (fun item => .copy item.source item.destination) ++
        (runPlan.deletes.take m).map fun item => .remove item.destination) := by
  have hsplit : issued.flatMap (·.operations readCopySource) =
      issued.flatMap fun task =>
        task.transferItems.map (fun item => StoreOp.copy item.source item.destination) ++
          task.deleteTargets.map StoreOp.remove := by
    refine List.flatMap_congr fun task htask => ?_
    refine PendingSyncTask.operations_eq fun item hitem => heffective item ?_
    have hmem : item ∈ issued.flatMap (·.transferItems) :=
      List.mem_flatMap.mpr ⟨task, htask, hitem⟩
    rw [h.transfers_eq] at hmem
    exact List.mem_of_mem_take hmem
  rw [hsplit]
  refine (List.flatMap_append_perm issued _ _).symm.trans ?_
  rw [← List.map_flatMap, ← List.map_flatMap, h.transfers_eq, h.deletes_eq, List.map_map]
  rfl

/-! ## What a task returns -/

/-- What the last request of the item is answered with: the object is in place, or gone. -/
def SyncItemReplies.Accepts (replies : SyncItemReplies) (item : SyncRunItem) : Prop :=
  match item.strategy with
  | .upload => replies.upload.Stores
  | .download => replies.download.Writes
  | .serverSideCopy => replies.copyObject = .ok ()
  | .clientRelay =>
      if SPOOL_LIMIT < item.bytes then replies.download.Writes ∧ replies.upload.Stores
      else ∃ copied, replies.relayObjectToS3 = .ok copied
  | .deleteRemote => replies.deleteObject = .ok ()
  | .deleteLocal => replies.removeFile = .ok ()

theorem download_writes {replies : DownloadReplies} {path : PathBuf} {copied : Nat}
    (h : (downloadObjectToFile replies path).result = .ok copied) : replies.Writes := by
  by_cases hcreates : replies.Creates path
  · rw [download_created hcreates] at h
    cases hcopy : replies.copy with
    | error error => rw [hcopy] at h; cases h
    | ok copied' =>
        cases hflush : replies.flush with
        | error error => rw [hcopy, hflush] at h; cases h
        | ok _ => exact ⟨copied', hcopy, hflush⟩
  · obtain ⟨error, hdownload⟩ := download_not_created hcreates
    rw [hdownload] at h
    cases h

section

variable {platform : Platform} {network : Network Str} {replies : SyncItemReplies}
  {sourceClient destinationClient : Option S3Client} {item : SyncRunItem} {fuel : Nat}
  {outcome : SyncItemOutcome}

theorem relayThroughSpool_accepted {sourceKey bucket key : Str}
    (h : relayThroughSpool platform network replies sourceKey bucket key fuel = some outcome)
    (hok : outcome.result = .ok ()) : replies.download.Writes ∧ replies.upload.Stores := by
  unfold relayThroughSpool at h
  cases hdownload : (downloadObjectToFile replies.download
      (relaySpoolPath platform replies sourceKey)).result with
  | error error =>
      simp only [hdownload] at h
      cases h
      cases hok
  | ok copied =>
      simp only [hdownload] at h
      obtain ⟨uploaded, hupload, rfl⟩ := Option.map_eq_some_iff.mp h
      obtain ⟨text, hresult⟩ := ok_of_map_eq_ok hok
      exact ⟨download_writes hdownload, Multipart.uploadFile_stores hupload hresult⟩

/-- An item succeeds only if its last request was answered with success. -/
theorem executeSyncRunItem_accepted
    (h : executeSyncRunItem platform network replies sourceClient destinationClient item fuel =
      some outcome)
    (hok : outcome.result = .ok ()) : replies.Accepts item := by
  unfold executeSyncRunItem at h
  unfold SyncItemReplies.Accepts
  cases hstrategy : item.strategy with
  | upload =>
      simp only [hstrategy] at h
      cases hendpoints : uploadEndpoints destinationClient item with
      | error error =>
          rw [hendpoints] at h
          cases h
          cases hok
      | ok endpoints =>
          rw [hendpoints] at h
          obtain ⟨uploaded, hupload, rfl⟩ := Option.map_eq_some_iff.mp h
          obtain ⟨text, hresult⟩ := ok_of_map_eq_ok hok
          exact Multipart.uploadFile_stores hupload hresult
  | download =>
      simp only [hstrategy] at h
      cases hendpoints : downloadEndpoints sourceClient item with
      | error error =>
          rw [hendpoints] at h
          cases h
          cases hok
      | ok path =>
          rw [hendpoints] at h
          cases h
          obtain ⟨copied, hresult⟩ := ok_of_map_eq_ok hok
          exact download_writes hresult
  | serverSideCopy =>
      simp only [hstrategy] at h
      cases h
      obtain ⟨endpoints, -, hcopy⟩ := bind_eq_ok hok
      exact hcopy
  | clientRelay =>
      simp only [hstrategy] at h
      cases hendpoints : relayEndpoints sourceClient destinationClient item with
      | error error =>
          rw [hendpoints] at h
          cases h
          cases hok
      | ok endpoints =>
          simp only [hendpoints] at h
          by_cases hlarge : SPOOL_LIMIT < item.bytes
          · simp only [if_pos hlarge] at h ⊢
            exact relayThroughSpool_accepted h hok
          · simp only [if_neg hlarge] at h ⊢
            cases h
            exact ok_of_map_eq_ok hok
  | deleteRemote =>
      simp only [hstrategy] at h
      cases h
      obtain ⟨endpoint, -, hdelete⟩ := bind_eq_ok hok
      exact hdelete
  | deleteLocal =>
      simp only [hstrategy] at h
      cases h
      obtain ⟨path, -, hremove⟩ := bind_eq_ok hok
      exact hremove

end

/-- What the requests of a task are answered, and the clients it is given. -/
structure TaskReplies where
  clients : Except String (Option S3Client × Option S3Client)
  item : SyncItemReplies
  fuel : Nat
  deletes : SyncReplies

/-- `none` while the parts of an upload have not ended. -/
def PendingSyncTask.returns (platform : Platform) (network : Network Str)
    (replies : TaskReplies) : PendingSyncTask → Option (Except String Unit)
  | .transfer item =>
      match replies.clients with
      | .error error => some (.error error)
      | .ok (sourceClient, destinationClient) =>
          (executeSyncRunItem platform network replies.item sourceClient destinationClient item
            replies.fuel).map (·.result)
  | task => some (task.answer replies.deletes)

/-- The answers say that this operation of the task has taken effect: it is what the item
does, and the item's last request succeeded, or it removes a key that no error of the batch
names. -/
def PendingSyncTask.Acknowledged (readCopySource : Str → Option (Str × Str))
    (replies : TaskReplies) (op : StoreOp TransferEndpoint) : PendingSyncTask → Prop
  | .transfer item => item.effect readCopySource = some op ∧ replies.item.Accepts item
  | .deleteRemote connectionId bucket keys _ _ =>
      ∃ errors, deleteObjects replies.deletes.deleteErrors = .ok errors ∧
        ∃ key ∈ keys, key ∉ errors ∧ op = .remove (.s3 connectionId bucket key)
  | .deleteLocal path _ _ => op = .remove (.local path) ∧ replies.deletes.done = .ok ()

theorem deleteBatchResult_ok {bucket label : Str} {keys : List Str} {bytes : Nat}
    {reported : Except String (List Str)} {result : SyncDeleteBatchResult}
    (h : deleteBatchResult bucket keys bytes label reported = .ok result) : reported = .ok [] := by
  cases reported with
  | error error => cases h
  | ok failed =>
      cases failed with
      | nil => rfl
      | cons key failed => cases h

/-- What a task that returns success stands for has all taken effect. -/
theorem PendingSyncTask.acknowledged_of_ok {platform : Platform} {network : Network Str}
    {replies : TaskReplies} {task : PendingSyncTask}
    (h : task.returns platform network replies = some (.ok ())) {op : StoreOp TransferEndpoint}
    (hop : op ∈ task.operations network.readCopySource) :
    task.Acknowledged network.readCopySource replies op := by
  cases task with
  | transfer item =>
      cases hclients : replies.clients with
      | error error => simp [PendingSyncTask.returns, hclients] at h
      | ok clients =>
          simp only [PendingSyncTask.returns, hclients] at h
          obtain ⟨outcome, houtcome, hok⟩ := Option.map_eq_some_iff.mp h
          exact ⟨Option.mem_toList.mp hop, executeSyncRunItem_accepted houtcome hok⟩
  | deleteRemote connectionId bucket keys bytes label =>
      obtain ⟨result, hresult⟩ := ok_of_map_eq_ok (Option.some.inj h)
      obtain ⟨key, hkey, hremove⟩ := List.mem_map.mp hop
      exact ⟨[], deleteBatchResult_ok hresult, key, hkey, List.not_mem_nil, hremove.symm⟩
  | deleteLocal path bytes label => exact ⟨List.mem_singleton.mp hop, Option.some.inj h⟩

/-! ## The machine -/

/-- A run with the store it works on. -/
structure SyncWorld (Content : Type u) where
  run : SyncRun
  work : Workload PendingSyncTask TransferEndpoint Content

inductive SyncWorldEvent
  /-- Request `n` of the task in flight at `index` takes effect. -/
  | carryOut (index n : Nat)
  | deliver (index : Nat) (answer : Except String Unit)
  | edit (after : SyncState)

section

variable (readCopySource : Str → Option (Str × Str))

def SyncWorld.start (sync : SyncState) (before : Store TransferEndpoint Content) :
    SyncWorld Content where
  run := SyncRun.start sync
  work := Workload.start (·.operations readCopySource) before (SyncRun.start sync).issued

def SyncWorld.step (world : SyncWorld Content) : SyncWorldEvent → SyncWorld Content
  | .carryOut index n => { world with work := world.work.carryOut index n }
  | .deliver index answer =>
      let next := world.run.step (.deliver index answer)
      { run := next
        work := (world.work.finish index).assign (·.operations readCopySource)
          (next.issued.drop world.run.issued.length) }
  | .edit after => { world with run := world.run.step (.edit after) }

end

/-- An answer is what its task returns, and what the requests of the task were answered
with success has taken effect by then; edits keep the run. -/
def SyncWorld.Own (platform : Platform) (network : Network Str) (world : SyncWorld Content) :
    SyncWorldEvent → Prop
  | .carryOut _ _ => True
  | .deliver index answer =>
      ∀ entry, world.work.held[index]? = some entry → ∃ replies : TaskReplies,
        entry.1.returns platform network replies = some answer ∧
          ∀ op ∈ entry.2, ¬ entry.1.Acknowledged network.readCopySource replies op
  | .edit after => KeepsRun world.run.sync after

/-- A task that returns success has nothing left to do. -/
theorem SyncWorld.Own.nothing_left {platform : Platform} {network : Network Str}
    {world : SyncWorld Content} {i : Nat} (h : world.Own platform network (.deliver i (.ok ())))
    {entry : PendingSyncTask × List (StoreOp TransferEndpoint)}
    (hentry : world.work.held[i]? = some entry)
    (hwithin : entry.2 ⊆ entry.1.operations network.readCopySource) : entry.2 = [] := by
  obtain ⟨replies, hreturns, hleft⟩ := h entry hentry
  refine List.eq_nil_iff_forall_not_mem.mpr fun op hop => ?_
  exact hleft op hop (PendingSyncTask.acknowledged_of_ok hreturns (hwithin hop))

/-! ## What every run keeps -/

/-- A counted failure accounts for an operation that was given up. -/
def SyncExecutionState.Excuses (e : SyncExecutionState) : StoreOp TransferEndpoint → Prop
  | .copy _ _ => 0 < e.failedTransfers
  | .remove _ => 0 < e.failedDeletes

/-- The run is coherent, its tasks hold what is left of their operations, and a failure
was counted for everything given up. -/
structure SyncWorld.Follows (readCopySource : Str → Option (Str × Str)) (start : SyncState)
    (runPlan : SyncRunPlan) (before : Store TransferEndpoint Content) (e : SyncExecutionState)
    (world : SyncWorld Content) : Prop where
  coherent : Coherent start runPlan world.run.sync e world.run.issued world.run.inFlight
  busy : e.phase = .done ∨ e.phase = .stopped ∨ world.run.inFlight ≠ []
  accounts : Workload.Accounts (·.operations readCopySource) before world.run.issued world.work
  tasks_eq : world.work.held.map (·.1) = world.run.inFlight
  excused : ∀ op ∈ world.work.lost, e.Excuses op

section

variable {platform : Platform} {network : Network Str}
  {readCopySource : Str → Option (Str × Str)} {start : SyncState} {runPlan : SyncRunPlan}
  {before : Store TransferEndpoint Content} {e : SyncExecutionState} {world : SyncWorld Content}

theorem SyncExecutionState.Excuses.mono {e' : SyncExecutionState}
    {op : StoreOp TransferEndpoint} (h : e.Excuses op)
    (htransfers : e.failedTransfers ≤ e'.failedTransfers)
    (hdeletes : e.failedDeletes ≤ e'.failedDeletes) : e'.Excuses op := by
  cases op with
  | copy source target => exact Nat.lt_of_lt_of_le h htransfers
  | remove target => exact Nat.lt_of_lt_of_le h hdeletes

theorem resultHandled_failed_le (e : SyncExecutionState) (ignoreErrors : Bool)
    (result : SyncRunResult) :
    e.failedTransfers ≤ (e.resultHandled ignoreErrors result).failedTransfers ∧
      e.failedDeletes ≤ (e.resultHandled ignoreErrors result).failedDeletes := by
  rcases result with (_ | _) | (_ | _)
  · exact ⟨Nat.le_succ _, le_rfl⟩
  · exact ⟨le_rfl, le_rfl⟩
  · exact ⟨le_rfl, Nat.le_succ _⟩
  · exact ⟨le_rfl, Nat.le_add_right _ _⟩

/-- The failure of a task is counted for every operation it stands for. -/
theorem excuses_of_error {task : PendingSyncTask}
    (heffect : ∀ item ∈ task.transferItems,
      item.effect readCopySource = some (.copy item.source item.destination))
    (ignoreErrors : Bool) (error : String) {op : StoreOp TransferEndpoint}
    (hop : op ∈ task.operations readCopySource) :
    (e.resultHandled ignoreErrors (task.intoTask (.error error))).Excuses op := by
  rw [PendingSyncTask.operations_eq heffect] at hop
  cases task with
  | transfer item =>
      have hcopy : op = .copy item.source item.destination := by
        simpa [PendingSyncTask.transferItems, PendingSyncTask.deleteTargets] using hop
      rw [hcopy]
      exact Nat.succ_pos _
  | deleteRemote connectionId bucket keys bytes label =>
      obtain ⟨target, -, rfl⟩ := List.mem_map.mp hop
      exact Nat.succ_pos _
  | deleteLocal path bytes label =>
      obtain ⟨target, -, rfl⟩ := List.mem_map.mp hop
      exact Nat.succ_pos _

/-- The items of the tasks handed out are transfers of the plan. -/
theorem Coherent.transferItems_subset {sync : SyncState} {issued inFlight : List PendingSyncTask}
    (h : Coherent start runPlan sync e issued inFlight) {task : PendingSyncTask}
    (htask : task ∈ issued) : ∀ item ∈ task.transferItems, item ∈ runPlan.transfers := by
  intro item hitem
  have hmem : item ∈ issued.flatMap (·.transferItems) := List.mem_flatMap.mpr ⟨task, htask, hitem⟩
  rw [h.accounted.handsOut.transfers_eq, h.plan_eq] at hmem
  exact List.mem_of_mem_take hmem

theorem SyncRun.deliver_inFlight {run : SyncRun} {i : Nat} {task : PendingSyncTask}
    (hi : run.inFlight[i]? = some task) (answer : Except String Unit) :
    (run.step (.deliver i answer)).inFlight =
      run.inFlight.eraseIdx i ++ (run.step (.deliver i answer)).issued.drop run.issued.length := by
  simp only [SyncRun.step, hi, List.drop_left]

theorem SyncWorld.Follows.carryOut (h : world.Follows readCopySource start runPlan before e)
    (i n : Nat) :
    (world.step readCopySource (.carryOut i n)).Follows readCopySource start runPlan before e := by
  have hframe := world.work.carryOut_frame i n
  refine ⟨h.coherent, h.busy, h.accounts.carryOut i n, hframe.1.trans h.tasks_eq, ?_⟩
  intro op hop
  refine h.excused op ?_
  rw [← hframe.2]
  exact hop

theorem SyncWorld.Follows.edited (h : world.Follows readCopySource start runPlan before e)
    {after : SyncState} (hkeeps : KeepsRun world.run.sync after) :
    (world.step readCopySource (.edit after)).Follows readCopySource start runPlan before e :=
  ⟨h.coherent.edited hkeeps, h.busy, h.accounts, h.tasks_eq, h.excused⟩

/-- What a delivery gives up is excused by the failure it counts. -/
theorem SyncWorld.Follows.excused_deliver
    (h : world.Follows network.readCopySource start runPlan before e)
    (heffective : runPlan.Effective network.readCopySource) {i : Nat} {task : PendingSyncTask}
    (hi : world.run.inFlight[i]? = some task) {answer : Except String Unit}
    (hown : world.Own platform network (.deliver i answer)) :
    ∀ op ∈ (world.work.finish i).lost,
      (e.resultHandled start.deleteGuardrails.ignoreErrors (task.intoTask answer)).Excuses op := by
  have hle := resultHandled_failed_le e start.deleteGuardrails.ignoreErrors (task.intoTask answer)
  have htask : (world.work.held.map (·.1))[i]? = some task := by
    rw [h.tasks_eq, hi]
  rw [List.getElem?_map, Option.map_eq_some_iff] at htask
  obtain ⟨entry, hentry, rfl⟩ := htask
  have hwithin := h.accounts.within entry (List.mem_of_getElem? hentry)
  intro op hop
  have hlost : op ∈ world.work.lost ++ entry.2 := by
    simpa only [Workload.finish, hentry, Option.map_some, Option.getD_some] using hop
  rcases List.mem_append.mp hlost with hold | hnew
  · exact (h.excused op hold).mono hle.1 hle.2
  · cases answer with
    | ok done =>
        have hnil := hown.nothing_left hentry hwithin.2
        rw [hnil] at hnew
        cases hnew
    | error error =>
        refine excuses_of_error ?_ start.deleteGuardrails.ignoreErrors error (hwithin.2 hnew)
        exact fun item hitem =>
          heffective item (h.coherent.transferItems_subset hwithin.1 item hitem)

theorem SyncWorld.Follows.deliver (h : world.Follows network.readCopySource start runPlan before e)
    (heffective : runPlan.Effective network.readCopySource) {i : Nat} {task : PendingSyncTask}
    (hi : world.run.inFlight[i]? = some task) {answer : Except String Unit}
    (hown : world.Own platform network (.deliver i answer)) :
    ∃ next,
      (world.step network.readCopySource (.deliver i answer)).Follows network.readCopySource
        start runPlan before next ∧
      SameCounters
        (e.resultHandled start.deleteGuardrails.ignoreErrors (task.intoTask answer)) next := by
  obtain ⟨sync, specs, next, -, -, -, -, hd, hissued, hcoherent, hbusy⟩ :=
    SyncRun.deliver_spec h.coherent hi answer
  have hspecs : (world.run.step (.deliver i answer)).issued.drop world.run.issued.length =
      specs := by
    rw [hissued, List.drop_left]
  have hflight := SyncRun.deliver_inFlight hi answer
  rw [hspecs] at hflight
  have hcounters := hd.sameCounters
  have hstep : world.step network.readCopySource (.deliver i answer) =
      { run := world.run.step (.deliver i answer)
        work := (world.work.finish i).assign (·.operations network.readCopySource) specs } := by
    simp only [SyncWorld.step, hspecs]
  rw [hstep]
  refine ⟨next, ⟨hcoherent, hbusy, ?_, ?_, ?_⟩, hcounters⟩
  · rw [hissued]
    exact (h.accounts.finish i).assign specs
  · show (world.work.held.eraseIdx i ++
      specs.map fun task => (task, task.operations network.readCopySource)).map (·.1) = _
    rw [hflight, List.map_append, List.map_map, ← h.tasks_eq, List.eraseIdx_map]
    simp [Function.comp_def]
  · intro op hop
    have hexcused := h.excused_deliver heffective hi hown op hop
    exact hexcused.mono hcounters.failedTransfers_eq.ge hcounters.failedDeletes_eq.ge

theorem SyncWorld.deliver_none {i : Nat} (hi : world.run.inFlight[i]? = none)
    (htasks : world.work.held.map (·.1) = world.run.inFlight) (answer : Except String Unit) :
    world.step readCopySource (.deliver i answer) = world := by
  have hheld : world.work.held[i]? = none := by
    rw [← htasks, List.getElem?_map, Option.map_eq_none_iff] at hi
    exact hi
  have hle : world.work.held.length ≤ i := List.getElem?_eq_none_iff.mp hheld
  simp only [SyncWorld.step, SyncRun.deliver_none hi, Workload.finish, Workload.assign, hheld,
    List.eraseIdx_of_length_le hle, List.drop_length, List.map_nil, List.append_nil,
    Option.map_none, Option.getD_none]

/-- Some execution follows the run. -/
def SyncWorld.Holds (readCopySource : Str → Option (Str × Str)) (start : SyncState)
    (runPlan : SyncRunPlan) (before : Store TransferEndpoint Content)
    (world : SyncWorld Content) : Prop :=
  ∃ e, world.Follows readCopySource start runPlan before e

theorem SyncWorld.Holds.step (h : world.Holds network.readCopySource start runPlan before)
    (heffective : runPlan.Effective network.readCopySource) {event : SyncWorldEvent}
    (hown : world.Own platform network event) :
    (world.step network.readCopySource event).Holds network.readCopySource start runPlan
      before := by
  obtain ⟨e, hfollows⟩ := h
  cases event with
  | carryOut i n => exact ⟨e, hfollows.carryOut i n⟩
  | deliver i answer =>
      cases hi : world.run.inFlight[i]? with
      | none =>
          rw [SyncWorld.deliver_none hi hfollows.tasks_eq]
          exact ⟨e, hfollows⟩
      | some task =>
          obtain ⟨next, hnext, -⟩ := hfollows.deliver heffective hi hown
          exact ⟨next, hnext⟩
  | edit after => exact ⟨e, hfollows.edited hown⟩

theorem SyncWorld.start_holds (hplan : start.runPlan = some runPlan)
    (hmode : start.mode ≠ .diff) (before : Store TransferEndpoint Content) :
    (SyncWorld.start readCopySource start before).Holds readCopySource start runPlan before := by
  obtain ⟨e, hcoherent, hbusy⟩ := SyncRun.start_holds hplan hmode
  refine ⟨e, hcoherent, hbusy, Workload.start_accounts before _, ?_, ?_⟩
  · show ((SyncRun.start start).issued.map fun task =>
      (task, task.operations readCopySource)).map (·.1) = _
    rw [List.map_map]
    exact List.map_id _
  · intro op hop
    cases hop

theorem SyncWorld.run_holds (before : Store TransferEndpoint Content)
    (hplan : start.runPlan = some runPlan) (hmode : start.mode ≠ .diff)
    (heffective : runPlan.Effective network.readCopySource) {events : List SyncWorldEvent}
    (hown : Along (SyncWorld.step network.readCopySource) (SyncWorld.Own platform network)
      (SyncWorld.start network.readCopySource start before) events) :
    (Foundation.run (SyncWorld.step network.readCopySource)
      (SyncWorld.start network.readCopySource start before) events).Holds
        network.readCopySource start runPlan before :=
  run_invariant (SyncWorld.Holds network.readCopySource start runPlan before)
    (fun _ _ h hown => h.step heffective hown) (SyncWorld.start_holds hplan hmode before) hown

end

end AbixioUi
