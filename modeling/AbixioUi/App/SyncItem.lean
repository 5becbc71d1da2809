import AbixioUi.App.TransferStep
import AbixioUi.S3.UploadFile

/-! # Carrying out an item of a sync run

An item is carried out by the strategy it was planned with. A relay between two servers
goes through memory, or for a large object through a spool file, which is downloaded,
uploaded and removed.
-/

namespace AbixioUi

open Foundation Multipart

/-! ## Downloading to a file -/

structure DownloadReplies where
  getObject : Except String Unit
  createDirAll : Except String Unit
  create : Except String Unit
  copy : Except String Nat
  flush : Except String Unit

/-- What the download returns, and the files it has created. -/
structure DownloadOutcome where
  result : Except String Nat
  created : List PathBuf

def downloadObjectToFile (replies : DownloadReplies) (path : PathBuf) : DownloadOutcome :=
  match replies.getObject with
  | .error error => ⟨.error error, []⟩
  | .ok () =>
      match if path.parent.isSome then replies.createDirAll else .ok () with
      | .error error => ⟨.error error, []⟩
      | .ok () =>
          match replies.create with
          | .error error => ⟨.error error, []⟩
          | .ok () =>
              { result := replies.copy.bind fun copied => replies.flush.map fun _ => copied
                created := [path] }

/-! ## The item -/

/-- Larger objects are relayed through a file. -/
def SPOOL_LIMIT : Nat := 5 * 1024 * 1024 * 1024

/-- What the clock, the file system and the servers answer. -/
structure SyncItemReplies where
  tempDir : PathBuf
  nanos : Nat
  download : DownloadReplies
  upload : UploadReplies
  copyObject : Except String Unit
  relayObjectToS3 : Except String Nat
  deleteObject : Except String Unit
  removeFile : Except String Unit

/-- What the item returns, the requests of its upload, and the files it has created and
not removed. -/
structure SyncItemOutcome where
  result : Except String Unit
  calls : List S3Call
  files : List PathBuf

def SyncItemOutcome.of (result : Except String Unit) : SyncItemOutcome := ⟨result, [], []⟩

/-! ## What a strategy requires -/

def TransferEndpoint.requireS3 (error : String) : TransferEndpoint → Except String (Str × Str)
  | .s3 _ bucket key => .ok (bucket, key)
  | .local _ => .error error

def TransferEndpoint.requireLocal (error : String) : TransferEndpoint → Except String PathBuf
  | .s3 _ _ _ => .error error
  | .local path => .ok path

def requireClient (error : String) : Option S3Client → Except String Unit
  | none => .error error
  | some _ => .ok ()

def uploadEndpoints (destinationClient : Option S3Client) (item : SyncRunItem) :
    Except String (PathBuf × Str × Str) := do
  let path ← item.source.requireLocal "upload strategy requires a local source"
  let destination ← item.destination.requireS3 "upload strategy requires an s3 destination"
  requireClient "missing destination client" destinationClient
  .ok (path, destination)

def downloadEndpoints (sourceClient : Option S3Client) (item : SyncRunItem) :
    Except String PathBuf := do
  let _ ← item.source.requireS3 "download strategy requires an s3 source"
  let path ← item.destination.requireLocal "download strategy requires a local destination"
  requireClient "missing source client" sourceClient
  .ok path

def copyEndpoints (sourceClient : Option S3Client) (item : SyncRunItem) :
    Except String Unit := do
  let _ ← item.source.requireS3 "server-side copy requires an s3 source"
  let _ ← item.destination.requireS3 "server-side copy requires an s3 destination"
  requireClient "missing source client" sourceClient

/-- The key to relay, and where it goes. -/
def relayEndpoints (sourceClient destinationClient : Option S3Client) (item : SyncRunItem) :
    Except String (Str × Str × Str) := do
  let source ← item.source.requireS3 "client relay requires an s3 source"
  let destination ← item.destination.requireS3 "client relay requires an s3 destination"
  requireClient "missing source client" sourceClient
  requireClient "missing destination client" destinationClient
  .ok (source.2, destination)

def deleteEndpoint (destinationClient : Option S3Client) (item : SyncRunItem) :
    Except String Unit := do
  let _ ← item.destination.requireS3 "remote delete requires an s3 destination"
  requireClient "missing destination client" destinationClient

/-! ## Strategies -/

section

variable (platform : Platform) (network : Network Str) (replies : SyncItemReplies)

def relaySpoolPath (sourceKey : Str) : PathBuf :=
  let sanitized := sourceKey.map fun c => if c = '/' ∨ c = '\\' ∨ c = ':' then '_' else c
  replies.tempDir.join platform
    ("abixio-ui-sync-relay-".toList ++ (Nat.repr replies.nanos).toList ++ '-' :: sanitized)

/-- Whether the removal succeeds is not looked at. -/
def removeSpool (spoolPath : PathBuf) (files : List PathBuf) : List PathBuf :=
  match replies.removeFile with
  | .error _ => files
  | .ok () => files.erase spoolPath

def relayThroughSpool (sourceKey bucket key : Str) (fuel : Nat) : Option SyncItemOutcome :=
  let spoolPath := relaySpoolPath platform replies sourceKey
  let downloaded := downloadObjectToFile replies.download spoolPath
  match downloaded.result with
  | .error error => some ⟨.error error, [], downloaded.created⟩
  | .ok _ =>
      let contentType := guessContentType network spoolPath
      (Multipart.uploadFile replies.upload bucket key contentType fuel).map fun uploaded =>
        { result := uploaded.result.map fun _ => ()
          calls := uploaded.calls
          files := removeSpool replies spoolPath downloaded.created }

def executeSyncRunItem (sourceClient destinationClient : Option S3Client) (item : SyncRunItem)
    (fuel : Nat) : Option SyncItemOutcome :=
  match item.strategy with
  | .upload =>
      match uploadEndpoints destinationClient item with
      | .error error => some (.of (.error error))
      | .ok (path, bucket, key) =>
          let contentType := guessContentType network path
          (Multipart.uploadFile replies.upload bucket key contentType fuel).map fun uploaded =>
            ⟨uploaded.result.map fun _ => (), uploaded.calls, []⟩
  | .download =>
      match downloadEndpoints sourceClient item with
      | .error error => some (.of (.error error))
      | .ok path =>
          let downloaded := downloadObjectToFile replies.download path
          some ⟨downloaded.result.map fun _ => (), [], downloaded.created⟩
  | .serverSideCopy =>
      some (.of ((copyEndpoints sourceClient item).bind fun _ => replies.copyObject))
  | .clientRelay =>
      match relayEndpoints sourceClient destinationClient item with
      | .error error => some (.of (.error error))
      | .ok (sourceKey, bucket, key) =>
          if SPOOL_LIMIT < item.bytes then
            relayThroughSpool platform network replies sourceKey bucket key fuel
          else some (.of (replies.relayObjectToS3.map fun _ => ()))
  | .deleteRemote =>
      some (.of ((deleteEndpoint destinationClient item).bind fun _ => replies.deleteObject))
  | .deleteLocal =>
      some (.of ((item.destination.requireLocal "local delete requires a local destination").bind
        fun _ => replies.removeFile))

end

/-! ## Spool files left behind -/

section

variable {platform : Platform} {network : Network Str} {replies : SyncItemReplies}
  {sourceClient destinationClient : Option S3Client} {item : SyncRunItem}

/-- The download gets as far as creating the file. -/
structure DownloadReplies.Creates (replies : DownloadReplies) (path : PathBuf) : Prop where
  getObject : replies.getObject = .ok ()
  createDirAll : path.parent.isSome → replies.createDirAll = .ok ()
  create : replies.create = .ok ()

/-- The content of the object gets into the file. -/
def DownloadReplies.Writes (replies : DownloadReplies) : Prop :=
  ∃ copied, replies.copy = .ok copied ∧ replies.flush = .ok ()

/-- No relay of a large object leaves the file that it went through. -/
def LeavesNoSpool (platform : Platform) (network : Network Str) (replies : SyncItemReplies)
    (sourceClient destinationClient : Option S3Client) (item : SyncRunItem) : Prop :=
  ∀ fuel outcome, item.strategy = .clientRelay → SPOOL_LIMIT < item.bytes →
    executeSyncRunItem platform network replies sourceClient destinationClient item fuel =
      some outcome → outcome.files = []

/-- A large object is to be relayed, its spool file is created, and then is not filled, or
is uploaded and not removed. -/
def SpoolStays (platform : Platform) (replies : SyncItemReplies)
    (sourceClient destinationClient : Option S3Client) (item : SyncRunItem) : Prop :=
  item.strategy = .clientRelay ∧ SPOOL_LIMIT < item.bytes ∧
    ∃ sourceKey bucket key,
      relayEndpoints sourceClient destinationClient item = .ok (sourceKey, bucket, key) ∧
      replies.download.Creates (relaySpoolPath platform replies sourceKey) ∧
      (¬ replies.download.Writes ∨
        replies.upload.Returns ∧ ∃ error, replies.removeFile = .error error)

theorem download_created {replies : DownloadReplies} {path : PathBuf}
    (h : replies.Creates path) : downloadObjectToFile replies path =
      ⟨replies.copy.bind fun copied => replies.flush.map fun _ => copied, [path]⟩ := by
  have hfolders : (if path.parent.isSome then replies.createDirAll else .ok ()) = .ok () := by
    split
    next hparent => exact h.createDirAll hparent
    next => rfl
  simp only [downloadObjectToFile, h.getObject, hfolders, h.create]

theorem download_not_created {replies : DownloadReplies} {path : PathBuf}
    (h : ¬ replies.Creates path) :
    ∃ error, downloadObjectToFile replies path = ⟨.error error, []⟩ := by
  unfold downloadObjectToFile
  cases hget : replies.getObject with
  | error error => exact ⟨error, rfl⟩
  | ok _ =>
      cases hfolders : (if path.parent.isSome then replies.createDirAll else .ok ()) with
      | error error => exact ⟨error, rfl⟩
      | ok _ =>
          cases hcreate : replies.create with
          | error error => exact ⟨error, rfl⟩
          | ok _ =>
              refine absurd ⟨hget, fun hparent => ?_, hcreate⟩ h
              rw [if_pos hparent] at hfolders
              exact hfolders

theorem relay_not_created {sourceKey : Str}
    (h : ¬ replies.download.Creates (relaySpoolPath platform replies sourceKey))
    (network : Network Str) (bucket key : Str) (fuel : Nat) :
    ∃ error, relayThroughSpool platform network replies sourceKey bucket key fuel =
      some ⟨.error error, [], []⟩ := by
  obtain ⟨error, hdownload⟩ := download_not_created h
  exact ⟨error, by simp only [relayThroughSpool, hdownload]⟩

theorem relay_not_written {sourceKey : Str}
    (h : replies.download.Creates (relaySpoolPath platform replies sourceKey))
    (hwrites : ¬ replies.download.Writes) (network : Network Str) (bucket key : Str)
    (fuel : Nat) :
    ∃ error, relayThroughSpool platform network replies sourceKey bucket key fuel =
      some ⟨.error error, [], [relaySpoolPath platform replies sourceKey]⟩ := by
  have hdownload := download_created h
  cases hcopy : replies.download.copy with
  | error error =>
      rw [hcopy] at hdownload
      exact ⟨error, by simp only [relayThroughSpool, hdownload, Except.bind]⟩
  | ok copied =>
      cases hflush : replies.download.flush with
      | error error =>
          rw [hcopy, hflush] at hdownload
          exact ⟨error, by simp only [relayThroughSpool, hdownload, Except.bind, Except.map]⟩
      | ok _ => exact absurd ⟨copied, hcopy, hflush⟩ hwrites

theorem relay_written {sourceKey : Str}
    (h : replies.download.Creates (relaySpoolPath platform replies sourceKey))
    (hwrites : replies.download.Writes) (network : Network Str) (bucket key : Str)
    (fuel : Nat) :
    relayThroughSpool platform network replies sourceKey bucket key fuel =
      (Multipart.uploadFile replies.upload bucket key
        (guessContentType network (relaySpoolPath platform replies sourceKey)) fuel).map
          fun uploaded => ⟨uploaded.result.map fun _ => (), uploaded.calls,
            removeSpool replies (relaySpoolPath platform replies sourceKey)
              [relaySpoolPath platform replies sourceKey]⟩ := by
  obtain ⟨copied, hcopy, hflush⟩ := hwrites
  have hdownload := download_created h
  rw [hcopy, hflush] at hdownload
  simp only [relayThroughSpool, hdownload, Except.bind, Except.map]

theorem removeSpool_eq_nil_iff (replies : SyncItemReplies) (spoolPath : PathBuf) :
    removeSpool replies spoolPath [spoolPath] = [] ↔
      ¬ ∃ error, replies.removeFile = .error error := by
  unfold removeSpool
  cases replies.removeFile with
  | error error => simp
  | ok _ => simp

theorem relayThroughSpool_files (platform : Platform) (network : Network Str)
    (replies : SyncItemReplies) (sourceKey bucket key : Str) :
    (∀ fuel outcome,
      relayThroughSpool platform network replies sourceKey bucket key fuel = some outcome →
        outcome.files = []) ↔
      ¬ (replies.download.Creates (relaySpoolPath platform replies sourceKey) ∧
        (¬ replies.download.Writes ∨
          replies.upload.Returns ∧ ∃ error, replies.removeFile = .error error)) := by
  by_cases hcreates : replies.download.Creates (relaySpoolPath platform replies sourceKey)
  · by_cases hwrites : replies.download.Writes
    · simp only [relay_written hcreates hwrites]
      constructor
      · rintro hfiles ⟨-, hnot | ⟨hreturns, hremove⟩⟩
        · exact hnot hwrites
        · obtain ⟨fuel, uploaded, hupload⟩ := (uploadFile_some_iff replies.upload bucket key
            (guessContentType network (relaySpoolPath platform replies sourceKey))).mpr hreturns
          have hnil := hfiles fuel _ (by rw [hupload]; rfl)
          exact (removeSpool_eq_nil_iff replies _).mp hnil hremove
      · intro hstays fuel outcome houtcome
        obtain ⟨uploaded, hupload, rfl⟩ := Option.map_eq_some_iff.mp houtcome
        have hreturns := (uploadFile_some_iff replies.upload bucket key _).mp
          ⟨fuel, uploaded, hupload⟩
        apply (removeSpool_eq_nil_iff replies _).mpr
        intro hremove
        exact hstays ⟨hcreates, .inr ⟨hreturns, hremove⟩⟩
    · obtain ⟨error, hrelay⟩ := relay_not_written hcreates hwrites network bucket key 0
      constructor
      · intro hfiles
        cases hfiles 0 _ hrelay
      · intro hstays
        exact absurd ⟨hcreates, .inl hwrites⟩ hstays
  · constructor
    · rintro - ⟨hcreated, -⟩
      exact hcreates hcreated
    · intro _ fuel outcome houtcome
      obtain ⟨error, hrelay⟩ := relay_not_created hcreates network bucket key fuel
      rw [hrelay] at houtcome
      cases houtcome
      rfl

/-- Only a failed download and a failed removal leave the spool file behind. -/
theorem leavesNoSpool_iff (platform : Platform) (network : Network Str)
    (replies : SyncItemReplies) (sourceClient destinationClient : Option S3Client)
    (item : SyncRunItem) :
    LeavesNoSpool platform network replies sourceClient destinationClient item ↔
      ¬ SpoolStays platform replies sourceClient destinationClient item := by
  cases hendpoints : relayEndpoints sourceClient destinationClient item with
  | error error =>
      constructor
      · rintro - ⟨-, -, sourceKey, bucket, key, hok, -⟩
        rw [hendpoints] at hok
        cases hok
      · intro _ fuel outcome hstrategy _ houtcome
        simp only [executeSyncRunItem, hstrategy, hendpoints] at houtcome
        cases houtcome
        rfl
  | ok endpoints =>
      obtain ⟨sourceKey, bucket, key⟩ := endpoints
      have hfiles := relayThroughSpool_files platform network replies sourceKey bucket key
      have hrelay : ∀ fuel, item.strategy = .clientRelay → SPOOL_LIMIT < item.bytes →
          executeSyncRunItem platform network replies sourceClient destinationClient item
            fuel = relayThroughSpool platform network replies sourceKey bucket key fuel := by
        intro fuel hstrategy hlarge
        simp only [executeSyncRunItem, hstrategy, hendpoints, if_pos hlarge]
      constructor
      · rintro hleaves ⟨hstrategy, hlarge, sourceKey', bucket', key', hok, hstays⟩
        rw [hendpoints] at hok
        cases hok
        refine hfiles.mp (fun fuel outcome houtcome => ?_) hstays
        rw [← hrelay fuel hstrategy hlarge] at houtcome
        exact hleaves fuel outcome hstrategy hlarge houtcome
      · intro hstays fuel outcome hstrategy hlarge houtcome
        rw [hrelay fuel hstrategy hlarge] at houtcome
        refine hfiles.mpr (fun hleft => ?_) fuel outcome houtcome
        exact hstays ⟨hstrategy, hlarge, sourceKey, bucket, key, hendpoints, hleft⟩

/-- An upload in parts is left unfinished, and a spool file is left in place, in exactly
the cases where their cleanup is passed over. -/
theorem intermediates_cleaned_iff (upload : UploadReplies) (bucket key contentType : Str)
    (platform : Platform) (network : Network Str) (replies : SyncItemReplies)
    (sourceClient destinationClient : Option S3Client) (item : SyncRunItem) :
    (AbortsOnError upload bucket key contentType ∧
      LeavesNoSpool platform network replies sourceClient destinationClient item) ↔
        ¬ upload.CompletionFails ∧
          ¬ SpoolStays platform replies sourceClient destinationClient item :=
  and_congr (abortsOnError_iff upload bucket key contentType)
    (leavesNoSpool_iff platform network replies sourceClient destinationClient item)

/-- The parts of a file go up, and the server refuses to complete them. -/
def refusedCompletion : UploadReplies where
  metadata := .ok aboveThreshold.flatten.length
  contents := .ok []
  putObject := .ok ()
  createMultipartUpload := .ok (some ['u'])
  opened := .ok (Reads.ofChunks aboveThreshold)
  uploadPart := (Stream'.const none).map Except.ok
  completeMultipartUpload := .error "internal error"

/-- The download of a large object breaks off in the middle. -/
def brokenDownload : SyncItemReplies where
  tempDir := ⟨none, true, [.normal (OsString.ofStr ['t'])]⟩
  nanos := 0
  download := ⟨.ok (), .ok (), .ok (), .error "connection reset", .ok ()⟩
  upload := refusedCompletion
  copyObject := .ok ()
  relayObjectToS3 := .ok 0
  deleteObject := .ok ()
  removeFile := .ok ()

def largeRelay : SyncRunItem where
  relativePath := ['k']
  action := .create
  source := .s3 ['a'] ['b'] ['k']
  destination := .s3 ['c'] ['d'] ['k']
  strategy := .clientRelay
  bytes := SPOOL_LIMIT + 1

/-- Both are left behind. -/
theorem intermediates_left :
    ¬ AbortsOnError refusedCompletion ['b'] ['k'] [] ∧
      ¬ LeavesNoSpool .unix plainNetwork brokenDownload (some ⟨['a'], none, []⟩)
        (some ⟨['c'], none, []⟩) largeRelay := by
  have hdelivers : (Reads.ofChunks aboveThreshold : FileReads).Delivers
      aboveThreshold.flatten :=
    Reads.delivers_ofChunks aboveThreshold_ne_nil
  have hlarge : MULTIPART_THRESHOLD < aboveThreshold.flatten.length := by
    simp [aboveThreshold]
  rw [abortsOnError_iff, leavesNoSpool_iff, not_not, not_not]
  constructor
  · refine ⟨_, ['u'], _, rfl, hlarge, rfl, ?_, rfl⟩
    exact (allPartsUp_iff _ _).mp
      ⟨_, _, _, uploadParts_delivers hdelivers (Stream'.const none) (Nat.lt_succ_self _)⟩
  · refine ⟨rfl, Nat.lt_succ_self _, ['k'], ['d'], ['k'], rfl, ⟨rfl, fun _ => rfl, rfl⟩, ?_⟩
    refine .inl ?_
    rintro ⟨copied, hcopy, -⟩
    cases hcopy

end

end AbixioUi
