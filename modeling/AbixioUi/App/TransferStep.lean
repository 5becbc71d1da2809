import AbixioUi.App.Transfers
import AbixioUi.Foundation.Requests
import AbixioUi.Foundation.Store

/-! # One transfer step

What a transfer task sends to the servers and to the file system. The network says
which server an endpoint reaches and how a server reads the text of a copy source;
every request can fail, or be carried out without its answer arriving.
-/

namespace AbixioUi

open Foundation

/-! ## Servers and files -/

abbrev Content := List UInt8

/-- Where contents are kept. -/
inductive Place (σ : Type)
  | object (server : σ) (bucket key : Str)
  | file (path : PathBuf)
deriving DecidableEq

structure Stored (σ : Type) where
  contents : Store (Place σ) Content
  folders : PathBuf → Bool

structure Network (σ : Type) where
  host : Str → σ
  /-- The object a server takes the text of a copy source for; servers decode it. -/
  readCopySource : Str → Option (Str × Str)
  mimeType : PathBuf → Option Str

def S3Client.server {σ : Type} (network : Network σ) (client : S3Client) : σ :=
  network.host client.endpoint

def Stored.put {σ : Type} [DecidableEq σ] (storage : Stored σ) (place : Place σ)
    (content : Content) : Stored σ :=
  { storage with contents := Function.update storage.contents place (some content) }

def Stored.remove {σ : Type} [DecidableEq σ] (storage : Stored σ) (place : Place σ) :
    Stored σ :=
  { storage with contents := Function.update storage.contents place none }

/-! ## Requests -/

inductive TransferRequest
  | headObject (client : S3Client) (bucket key : Str)
  | copyObject (client : S3Client) (sourceBucket sourceKey destinationBucket destinationKey : Str)
  | deleteObject (client : S3Client) (bucket key : Str)
  | uploadFile (client : S3Client) (bucket key : Str) (path : PathBuf) (contentType : Str)
  | getObject (client : S3Client) (bucket key : Str)
  | pathExists (path : PathBuf)
  | createDirAll (path : PathBuf)
  | writeFile (path : PathBuf) (data : Content)
deriving DecidableEq

/-- What becomes of the requests of one step. -/
structure TransferVerdicts where
  check : Verdict
  copy : Verdict
  delete : Verdict
  upload : Verdict
  get : Verdict
  createDirs : Verdict
  write : Verdict

def servedVerdicts : TransferVerdicts where
  check := .served
  copy := .served
  delete := .served
  upload := .served
  get := .served
  createDirs := .served
  write := .served

/-- Every endpoint is a server of its own, and copy sources are read up to the first
slash. -/
def plainNetwork : Network Str where
  host := id
  readCopySource := fun copySource =>
    some (copySource.takeWhile (· ≠ '/'), (copySource.dropWhile (· ≠ '/')).drop 1)
  mimeType := fun _ => none

abbrev TransferSession (σ : Type) := Session TransferRequest (Stored σ)

abbrev Transferring (σ α : Type) := Requests TransferRequest (Stored σ) α

section Requests

variable {σ : Type} [DecidableEq σ] (network : Network σ) (verdicts : TransferVerdicts)

def headObject (client : S3Client) (bucket key : Str) : Transferring σ Unit :=
  .check (.headObject client bucket key) verdicts.check
    (fun storage => (storage.contents (.object (client.server network) bucket key)).isSome)
    "not found"

/-- The source is named by the text `bucket/key`, as it is. -/
def copyObject (client : S3Client) (sourceBucket sourceKey destinationBucket destinationKey : Str) :
    Transferring σ Unit :=
  let copySource := sourceBucket ++ '/' :: sourceKey
  .send (.copyObject client sourceBucket sourceKey destinationBucket destinationKey)
    verdicts.copy fun storage =>
      match network.readCopySource copySource with
      | none => .error "invalid copy source"
      | some (bucket, key) =>
          match storage.contents (.object (client.server network) bucket key) with
          | none => .error "no such key"
          | some content =>
              .ok ((), storage.put
                (.object (client.server network) destinationBucket destinationKey) content)

/-- Deleting an object that is not there succeeds too. -/
def deleteObject (client : S3Client) (bucket key : Str) : Transferring σ Unit :=
  .send (.deleteObject client bucket key) verdicts.delete fun storage =>
    .ok ((), storage.remove (.object (client.server network) bucket key))

def guessContentType (path : PathBuf) : Str :=
  (network.mimeType path).getD "application/octet-stream".toList

/-- A large file goes out in parts, which become an object all at once. -/
def uploadFile (client : S3Client) (bucket key : Str) (path : PathBuf) (contentType : Str) :
    Transferring σ Unit :=
  .send (.uploadFile client bucket key path contentType) verdicts.upload fun storage =>
    match storage.contents (.file path) with
    | none => .error "no such file"
    | some content => .ok ((), storage.put (.object (client.server network) bucket key) content)

def getObject (client : S3Client) (bucket key : Str) : Transferring σ Content :=
  .send (.getObject client bucket key) verdicts.get fun storage =>
    match storage.contents (.object (client.server network) bucket key) with
    | none => .error "no such key"
    | some content => .ok (content, storage)

def pathExists (path : PathBuf) : Transferring σ Unit :=
  .check (.pathExists path) verdicts.check
    (fun storage => (storage.contents (.file path)).isSome || storage.folders path) "not found"

def createDirAll (path : PathBuf) : Transferring σ Unit :=
  .send (.createDirAll path) verdicts.createDirs fun storage =>
    if path.ancestors.any fun ancestor => (storage.contents (.file ancestor)).isSome then
      .error "not a directory"
    else
      .ok ((), { storage with
        folders := fun folder => storage.folders folder || path.ancestors.contains folder })

def writeFile (path : PathBuf) (data : Content) : Transferring σ Unit :=
  .send (.writeFile path data) verdicts.write fun storage =>
    if storage.folders path then .error "is a directory"
    else .ok ((), storage.put (.file path) data)

/-! ## The step -/

/-- Copies one item, unless something is there and the policy says otherwise. A move
deletes the source after the copy. -/
def runTransferStep (platform : Platform) (sourceClient : S3Client)
    (destinationClient : Option S3Client) (item : TransferItem)
    (overwritePolicy : OverwritePolicy) (isMove : Bool) : Transferring σ TransferStepResult :=
  match item.destination with
  | .s3 _ bucket key =>
      match destinationClient with
      | none => .fail "missing destination client"
      | some destinationClient => do
          let found ← (headObject network verdicts destinationClient bucket key).succeeds
          match found, overwritePolicy with
          | true, .ask => pure (.conflict item)
          | true, .skipAll => pure (.skipped (item.label platform))
          | _, _ =>
              match item.source with
              | .s3 _ sourceBucket sourceKey => do
                  copyObject network verdicts sourceClient sourceBucket sourceKey bucket key
                  if isMove then
                    deleteObject network verdicts sourceClient sourceBucket sourceKey
                  pure (.copied (item.label platform))
              | .local path => do
                  uploadFile network verdicts destinationClient bucket key path
                    (guessContentType network path)
                  pure (.copied (item.label platform))
  | .local path => do
      let found ← (pathExists verdicts path).succeeds
      match found, overwritePolicy with
      | true, .ask => pure (.conflict item)
      | true, .skipAll => pure (.skipped (item.label platform))
      | _, _ =>
          match item.source with
          | .local _ => .fail "local to local transfer is unsupported"
          | .s3 _ bucket key => do
              let data ← getObject network verdicts sourceClient bucket key
              match path.parent with
              | some parent => createDirAll verdicts parent
              | none => pure ()
              writeFile verdicts path data
              pure (.copied (item.label platform))

end Requests

/-! ## How a step ends -/

section Outcomes

variable {σ : Type} {network : Network σ} {verdicts : TransferVerdicts}
  {session : TransferSession σ}

/-- The existence check of an object finds it. -/
def findsObject (network : Network σ) (verdicts : TransferVerdicts) (storage : Stored σ)
    (client : S3Client) (bucket key : Str) : Bool :=
  decide (verdicts.check = .served) &&
    (storage.contents (.object (client.server network) bucket key)).isSome

/-- The existence check of a path finds a file or a folder. -/
def findsPath (verdicts : TransferVerdicts) (storage : Stored σ) (path : PathBuf) : Bool :=
  decide (verdicts.check = .served) &&
    ((storage.contents (.file path)).isSome || storage.folders path)

theorem headObject_succeeds (client : S3Client) (bucket key : Str) :
    (headObject network verdicts client bucket key).succeeds session =
      (.ok (findsObject network verdicts session.store client bucket key),
        session.record session.store (.headObject client bucket key)
          (findsObject network verdicts session.store client bucket key)) :=
  Requests.succeeds_check

theorem pathExists_succeeds (path : PathBuf) :
    (pathExists verdicts path).succeeds session =
      (.ok (findsPath verdicts session.store path),
        session.record session.store (.pathExists path)
          (findsPath verdicts session.store path)) :=
  Requests.succeeds_check

variable [DecidableEq σ] {platform : Platform}

/-- Something is found where the item goes. -/
def findsDestination (network : Network σ) (verdicts : TransferVerdicts) (storage : Stored σ)
    (destinationClient : Option S3Client) : TransferEndpoint → Bool
  | .s3 _ bucket key =>
      match destinationClient with
      | none => false
      | some client => findsObject network verdicts storage client bucket key
  | .local path => findsPath verdicts storage path

/-- The content that the server of the client takes the text `bucket/key` for. -/
def CopySource (network : Network σ) (storage : Stored σ) (client : S3Client) (bucket key : Str)
    (content : Content) : Prop :=
  ∃ read, network.readCopySource (bucket ++ '/' :: key) = some read ∧
    storage.contents (.object (client.server network) read.1 read.2) = some content

/-- An answered copy has put the content of its source on the server of its client. -/
theorem copyObject_ends {client : S3Client} {sourceBucket sourceKey bucket key : Str}
    {post : Except String Unit → TransferSession σ → Prop}
    (hcopied : ∀ content,
      CopySource network session.store client sourceBucket sourceKey content →
      post (.ok ()) (session.record
        (session.store.put (.object (client.server network) bucket key) content)
        (.copyObject client sourceBucket sourceKey bucket key) true))
    (hfailed : ∀ error store,
      (verdicts.copy = .served → ∀ content,
        ¬ CopySource network session.store client sourceBucket sourceKey content) →
      (store = session.store ∨ ∃ content,
        CopySource network session.store client sourceBucket sourceKey content ∧
        store = session.store.put (.object (client.server network) bucket key) content) →
      post (.error error) (session.record store
        (.copyObject client sourceBucket sourceKey bucket key) false)) :
    (copyObject network verdicts client sourceBucket sourceKey bucket key).Ends session post := by
  have heffect : ∀ answer store,
      (match network.readCopySource (sourceBucket ++ '/' :: sourceKey) with
        | none => Except.error "invalid copy source"
        | some (readBucket, readKey) =>
            match session.store.contents (.object (client.server network) readBucket readKey) with
            | none => Except.error "no such key"
            | some content => Except.ok ((), session.store.put
                (.object (client.server network) bucket key) content)) =
        Except.ok (answer, store) →
      ∃ content, CopySource network session.store client sourceBucket sourceKey content ∧
        store = session.store.put (.object (client.server network) bucket key) content := by
    intro answer store h
    cases hread : network.readCopySource (sourceBucket ++ '/' :: sourceKey) with
    | none => simp [hread] at h
    | some read =>
        cases hcontent : session.store.contents
            (.object (client.server network) read.1 read.2) with
        | none => simp [hread, hcontent] at h
        | some content =>
            simp only [hread, hcontent, Except.ok.injEq, Prod.mk.injEq] at h
            exact ⟨content, ⟨read, hread, hcontent⟩, h.2.symm⟩
  apply Requests.ends_send
  · intro answer store _ hdone
    obtain ⟨content, hsource, rfl⟩ := heffect answer store hdone
    exact hcopied content hsource
  · intro error hfails
    refine hfailed error session.store (fun hserved content hsource => ?_) (.inl rfl)
    obtain ⟨read, hread, hcontent⟩ := hsource
    apply hfails hserved ((), session.store.put
      (.object (client.server network) bucket key) content)
    simp only [hread, hcontent]
  · intro error answer store hlost hdone
    refine hfailed error store (fun hserved => ?_) (.inr (heffect answer store hdone))
    rw [hlost] at hserved
    cases hserved

theorem deleteObject_ends {client : S3Client} {bucket key : Str}
    {post : Except String Unit → TransferSession σ → Prop}
    (hdeleted : post (.ok ()) (session.record
      (session.store.remove (.object (client.server network) bucket key))
      (.deleteObject client bucket key) true))
    (hfailed : ∀ error store, verdicts.delete ≠ .served →
      (store = session.store ∨
        store = session.store.remove (.object (client.server network) bucket key)) →
      post (.error error) (session.record store (.deleteObject client bucket key) false)) :
    (deleteObject network verdicts client bucket key).Ends session post := by
  apply Requests.ends_send
  · intro answer store _ hdone
    simp only [Except.ok.injEq, Prod.mk.injEq] at hdone
    rw [← hdone.2]
    exact hdeleted
  · intro error hfails
    exact hfailed error session.store (fun hserved => hfails hserved _ rfl) (.inl rfl)
  · intro error answer store hlost hdone
    simp only [Except.ok.injEq, Prod.mk.injEq] at hdone
    refine hfailed error store (fun hserved => ?_) (.inr hdone.2.symm)
    rw [hlost] at hserved
    cases hserved

/-- The two ends of a transfer between objects, with the clients it is done with. -/
structure ObjectTransfer where
  sourceClient : S3Client
  destinationClient : S3Client
  sourceId : Str
  sourceBucket : Str
  sourceKey : Str
  destinationId : Str
  destinationBucket : Str
  destinationKey : Str

def ObjectTransfer.item (transfer : ObjectTransfer) : TransferItem where
  source := .s3 transfer.sourceId transfer.sourceBucket transfer.sourceKey
  destination := .s3 transfer.destinationId transfer.destinationBucket transfer.destinationKey

def ObjectTransfer.sourcePlace (network : Network σ) (transfer : ObjectTransfer) : Place σ :=
  .object (transfer.sourceClient.server network) transfer.sourceBucket transfer.sourceKey

/-- Where the destination connection's server keeps the object. -/
def ObjectTransfer.destinationPlace (network : Network σ) (transfer : ObjectTransfer) : Place σ :=
  .object (transfer.destinationClient.server network) transfer.destinationBucket
    transfer.destinationKey

/-- Where the copy puts the object: the source client asks its own server. -/
def ObjectTransfer.copyPlace (network : Network σ) (transfer : ObjectTransfer) : Place σ :=
  .object (transfer.sourceClient.server network) transfer.destinationBucket
    transfer.destinationKey

def ObjectTransfer.CopySource (network : Network σ) (storage : Stored σ)
    (transfer : ObjectTransfer) (content : Content) : Prop :=
  AbixioUi.CopySource network storage transfer.sourceClient transfer.sourceBucket
    transfer.sourceKey content

def ObjectTransfer.headRequest (transfer : ObjectTransfer) : TransferRequest :=
  .headObject transfer.destinationClient transfer.destinationBucket transfer.destinationKey

def ObjectTransfer.copyRequest (transfer : ObjectTransfer) : TransferRequest :=
  .copyObject transfer.sourceClient transfer.sourceBucket transfer.sourceKey
    transfer.destinationBucket transfer.destinationKey

def ObjectTransfer.deleteRequest (transfer : ObjectTransfer) : TransferRequest :=
  .deleteObject transfer.sourceClient transfer.sourceBucket transfer.sourceKey

def ObjectTransfer.finds (network : Network σ) (verdicts : TransferVerdicts)
    (storage : Stored σ) (transfer : ObjectTransfer) : Bool :=
  findsObject network verdicts storage transfer.destinationClient transfer.destinationBucket
    transfer.destinationKey

/-- How a transfer between objects can end: stopped by the policy, with a failed copy,
copied, copied and deleted, or copied with a failed delete. -/
inductive ObjectStep (network : Network σ) (verdicts : TransferVerdicts)
    (transfer : ObjectTransfer) (overwritePolicy : OverwritePolicy) (isMove : Bool)
    (label : String) (storage : Stored σ) (found : Bool) :
    Except String TransferStepResult → TransferSession σ → Prop
  | conflict (hfound : found = true) (hpolicy : overwritePolicy = .ask) :
      ObjectStep network verdicts transfer overwritePolicy isMove label storage found
        (.ok (.conflict transfer.item)) ⟨storage, [(transfer.headRequest, found)]⟩
  | skipped (hfound : found = true) (hpolicy : overwritePolicy = .skipAll) :
      ObjectStep network verdicts transfer overwritePolicy isMove label storage found
        (.ok (.skipped label)) ⟨storage, [(transfer.headRequest, found)]⟩
  | copyFailed (error : String) (store : Stored σ)
      (hfails : verdicts.copy = .served → ∀ content, ¬ transfer.CopySource network storage content)
      (hgoes : found = true → overwritePolicy = .overwriteAll)
      (hstore : store = storage ∨ ∃ content, transfer.CopySource network storage content ∧
        store = storage.put (transfer.copyPlace network) content) :
      ObjectStep network verdicts transfer overwritePolicy isMove label storage found (.error error)
        ⟨store, [(transfer.headRequest, found), (transfer.copyRequest, false)]⟩
  | copied (content : Content) (hmove : isMove = false)
      (hgoes : found = true → overwritePolicy = .overwriteAll)
      (hsource : transfer.CopySource network storage content) :
      ObjectStep network verdicts transfer overwritePolicy isMove label storage found
        (.ok (.copied label)) ⟨storage.put (transfer.copyPlace network) content,
          [(transfer.headRequest, found), (transfer.copyRequest, true)]⟩
  | moved (content : Content) (hmove : isMove = true)
      (hgoes : found = true → overwritePolicy = .overwriteAll)
      (hsource : transfer.CopySource network storage content) :
      ObjectStep network verdicts transfer overwritePolicy isMove label storage found
        (.ok (.copied label))
        ⟨(storage.put (transfer.copyPlace network) content).remove
            (transfer.sourcePlace network),
          [(transfer.headRequest, found), (transfer.copyRequest, true),
            (transfer.deleteRequest, true)]⟩
  | deleteFailed (error : String) (content : Content) (store : Stored σ) (hmove : isMove = true)
      (hfails : verdicts.delete ≠ .served)
      (hgoes : found = true → overwritePolicy = .overwriteAll)
      (hsource : transfer.CopySource network storage content)
      (hstore : store = storage.put (transfer.copyPlace network) content ∨
        store = (storage.put (transfer.copyPlace network) content).remove
          (transfer.sourcePlace network)) :
      ObjectStep network verdicts transfer overwritePolicy isMove label storage found (.error error)
        ⟨store, [(transfer.headRequest, found), (transfer.copyRequest, true),
          (transfer.deleteRequest, false)]⟩

/-- A transfer between objects ends in one of these ways. -/
theorem runTransferStep_objects (transfer : ObjectTransfer) (overwritePolicy : OverwritePolicy)
    (isMove : Bool) (storage : Stored σ) :
    (runTransferStep network verdicts platform transfer.sourceClient
      (some transfer.destinationClient) transfer.item overwritePolicy isMove).Ends
      (Session.start storage)
      (ObjectStep network verdicts transfer overwritePolicy isMove (transfer.item.label platform)
        storage (transfer.finds network verdicts storage)) := by
  have hcopies : ∀ found, (found = true → overwritePolicy = .overwriteAll) →
      Requests.Ends (do
        copyObject network verdicts transfer.sourceClient transfer.sourceBucket
          transfer.sourceKey transfer.destinationBucket transfer.destinationKey
        if isMove then
          deleteObject network verdicts transfer.sourceClient transfer.sourceBucket
            transfer.sourceKey
        pure (.copied (transfer.item.label platform)))
        ((Session.start storage).record storage transfer.headRequest found)
        (ObjectStep network verdicts transfer overwritePolicy isMove (transfer.item.label platform)
          storage found) := by
    intro found hgoes
    rw [Requests.ends_bind]
    apply copyObject_ends
    · intro content hsource
      cases hmove : isMove with
      | false =>
          simp only [Bool.false_eq_true, if_false]
          exact .copied content rfl hgoes hsource
      | true =>
          simp only [if_true]
          rw [Requests.ends_bind]
          apply deleteObject_ends
          · exact .moved content rfl hgoes hsource
          · intro error store hfails hstore
            exact .deleteFailed error content store rfl hfails hgoes hsource hstore
    · intro error store hfails hstore
      exact .copyFailed error store hfails hgoes hstore
  unfold runTransferStep
  simp only [ObjectTransfer.item]
  rw [Requests.ends_bind, Requests.Ends, headObject_succeeds]
  cases hfound : transfer.finds network verdicts storage with
  | false =>
      have hfound' := hfound
      unfold ObjectTransfer.finds at hfound'
      simp only [Session.start, hfound']
      exact hcopies false (by simp)
  | true =>
      have hfound' := hfound
      unfold ObjectTransfer.finds at hfound'
      simp only [Session.start, hfound']
      cases overwritePolicy with
      | ask => exact .conflict rfl rfl
      | skipAll => exact .skipped rfl rfl
      | overwriteAll => exact hcopies true (fun _ => rfl)

/-! ## Stops -/

/-- A step asks about its own item, and only under the policy to ask. -/
theorem runTransferStep_asks (sourceClient : S3Client) (destinationClient : Option S3Client)
    (item : TransferItem) (overwritePolicy : OverwritePolicy) (isMove : Bool) :
    (runTransferStep network verdicts platform sourceClient destinationClient item
      overwritePolicy isMove).Returns fun result =>
        ∀ other, result = .conflict other → other = item ∧ overwritePolicy = .ask := by
  have hcopied : ∀ label other, TransferStepResult.copied label = .conflict other →
      other = item ∧ overwritePolicy = .ask := fun _ _ h => by cases h
  have hask : ∀ other, TransferStepResult.conflict item = .conflict other → other = item ∧
      OverwritePolicy.ask = .ask := fun other h => ⟨(TransferStepResult.conflict.inj h).symm, rfl⟩
  have hskip : ∀ label other, TransferStepResult.skipped label = .conflict other →
      other = item ∧ OverwritePolicy.skipAll = .ask := fun _ _ h => by cases h
  unfold runTransferStep
  split
  next =>
    split
    next => exact Requests.returns_fail
    next =>
      apply Requests.returns_bind
      intro found
      split
      next => exact Requests.returns_pure hask
      next => exact Requests.returns_pure (hskip _)
      next =>
        split
        next =>
          apply Requests.returns_bind
          intro _
          split
          · exact Requests.returns_bind fun _ => Requests.returns_pure (hcopied _)
          · exact Requests.returns_pure (hcopied _)
        next => exact Requests.returns_bind fun _ => Requests.returns_pure (hcopied _)
  next =>
    apply Requests.returns_bind
    intro found
    split
    next => exact Requests.returns_pure hask
    next => exact Requests.returns_pure (hskip _)
    next =>
      split
      next => exact Requests.returns_fail
      next =>
        apply Requests.returns_bind
        intro data
        split
        · exact Requests.returns_bind fun _ =>
            Requests.returns_bind fun _ => Requests.returns_pure (hcopied _)
        · exact Requests.returns_bind fun _ => Requests.returns_pure (hcopied _)

/-- Where a request writes, if it writes. -/
def TransferRequest.writes (network : Network σ) : TransferRequest → Option (Place σ)
  | .copyObject client _ _ bucket key => some (.object (client.server network) bucket key)
  | .uploadFile client bucket key _ _ => some (.object (client.server network) bucket key)
  | .writeFile path _ => some (.file path)
  | _ => none

/-- A step that finds something, and may not overwrite it, writes nothing. -/
theorem runTransferStep_stopped {sourceClient : S3Client} {destinationClient : Option S3Client}
    {item : TransferItem} {overwritePolicy : OverwritePolicy} {isMove : Bool}
    {storage : Stored σ}
    (hfound : findsDestination network verdicts storage destinationClient item.destination = true)
    (hpolicy : overwritePolicy ≠ .overwriteAll) :
    (runTransferStep network verdicts platform sourceClient destinationClient item
      overwritePolicy isMove).Ends (Session.start storage) fun _ session =>
        session.store = storage ∧ ∀ entry ∈ session.journal, entry.1.writes network = none := by
  have hchecked : ∀ (request : TransferRequest) (answered : Bool),
      request.writes network = none →
      ((Session.start storage).record storage request answered).store = storage ∧
        ∀ entry ∈ ((Session.start storage).record storage request answered).journal,
          entry.1.writes network = none := by
    intro request answered hrequest
    refine ⟨rfl, fun entry hentry => ?_⟩
    rw [List.mem_singleton.mp hentry]
    exact hrequest
  unfold runTransferStep
  split
  next id bucket key hdestination =>
    rw [hdestination] at hfound
    split
    next => cases hfound
    next client =>
      rw [Requests.ends_bind, Requests.Ends, headObject_succeeds]
      have hfinds : findsObject network verdicts
          (Session.start storage : TransferSession σ).store client bucket key = true := hfound
      simp only [hfinds]
      cases overwritePolicy with
      | ask => exact hchecked _ _ rfl
      | skipAll => exact hchecked _ _ rfl
      | overwriteAll => exact absurd rfl hpolicy
  next path hdestination =>
    rw [hdestination] at hfound
    rw [Requests.ends_bind, Requests.Ends, pathExists_succeeds]
    have hfinds : findsPath verdicts (Session.start storage : TransferSession σ).store path =
        true := hfound
    simp only [hfinds]
    cases overwritePolicy with
    | ask => exact hchecked _ _ rfl
    | skipAll => exact hchecked _ _ rfl
    | overwriteAll => exact absurd rfl hpolicy

end Outcomes

end AbixioUi
