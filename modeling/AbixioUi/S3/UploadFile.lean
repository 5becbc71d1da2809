import AbixioUi.Foundation.RoundTrip
import AbixioUi.S3.Multipart

/-! # Uploading a file

A small file goes up in one request. A large one is a multipart upload, which is created,
filled part by part, and then completed or aborted. Parts that are neither stay at the
server.
-/

namespace AbixioUi.Multipart

open Foundation

/-! ## The requests -/

inductive S3Call
  | putObject (bucket key : Str) (data : List UInt8) (contentType : Str)
  | createMultipartUpload (bucket key contentType : Str)
  | uploadPart (bucket key uploadId : Str) (part : UploadPartRequest)
  | completeMultipartUpload (bucket key uploadId : Str) (parts : List CompletedPart)
  | abortMultipartUpload (bucket key uploadId : Str)
deriving DecidableEq, Repr

/-- What the file system and the server answer. Nothing looks at the answer to an abort. -/
structure UploadReplies where
  metadata : Except String Nat
  contents : Except String (List UInt8)
  putObject : Except String Unit
  createMultipartUpload : Except String (Option Str)
  opened : Except String FileReads
  uploadPart : PartReplies
  completeMultipartUpload : Except String Unit

/-- What the upload returns, and the requests it has sent. -/
structure UploadOutcome where
  result : Except String Str
  calls : List S3Call

/-- The identifier of a created upload. -/
def UploadReplies.uploadId (replies : UploadReplies) : Except String Str :=
  match replies.createMultipartUpload with
  | .error error => .error error
  | .ok uploadId => uploadId.elim (.error "server did not return upload_id") .ok

/-- Completes an upload whose parts have all gone up, and aborts any other. -/
def finishUpload (replies : UploadReplies) (bucket key uploadId : Str) (calls : List S3Call) :
    Except String (List CompletedPart) → UploadOutcome
  | .ok parts =>
      { result := replies.completeMultipartUpload.map fun _ => []
        calls := calls ++ [.completeMultipartUpload bucket key uploadId parts] }
  | .error error =>
      { result := .error error
        calls := calls ++ [.abortMultipartUpload bucket key uploadId] }

/-- Upload a local file; `none` while the parts have not ended. -/
def uploadFile (replies : UploadReplies) (bucket key contentType : Str) (fuel : Nat) :
    Option UploadOutcome :=
  match replies.metadata with
  | .error error => some ⟨.error error, []⟩
  | .ok size =>
      if size ≤ MULTIPART_THRESHOLD then
        match replies.contents with
        | .error error => some ⟨.error error, []⟩
        | .ok data =>
            some
              { result := replies.putObject.map fun _ => []
                calls := [.putObject bucket key data contentType] }
      else
        let created := S3Call.createMultipartUpload bucket key contentType
        match replies.uploadId with
        | .error error => some ⟨.error error, [created]⟩
        | .ok uploadId =>
            (uploadParts replies.opened replies.uploadPart size fuel).map fun outcome =>
              finishUpload replies bucket key uploadId
                (created :: outcome.sent.map (.uploadPart bucket key uploadId)) outcome.result

/-! ## When all parts go up -/

/-- The reads fill these parts, one after the other, until nothing remains. -/
inductive Fills : FileReads → Nat → List (List UInt8) → Prop
  | done (file : FileReads) : Fills file 0 []
  | part {file next : FileReads} {remaining : Nat} {buf : List UInt8}
      {bodies : List (List UInt8)} (more : 0 < remaining)
      (filled : fillBuffer (min remaining MULTIPART_PART_SIZE) [] file = .ok (buf, next))
      (rest : Fills next (remaining - buf.length) bodies) :
      Fills file remaining (buf :: bodies)

/-- The first `n` uploads of a part succeed. -/
def ServedUpTo (replies : PartReplies) (n : Nat) : Prop :=
  ∀ i, i < n → ∃ eTag, replies.get i = .ok eTag

/-- The file can be opened, its reads fill the parts, and each of them goes up. -/
def UploadReplies.AllPartsUp (replies : UploadReplies) (size : Nat) : Prop :=
  ∃ file bodies, replies.opened = .ok file ∧ Fills file size bodies ∧
    ServedUpTo replies.uploadPart bodies.length

variable {state : PartLoop}

/-- A loop that leaves with parts has filled them and has had each of them accepted. -/
theorem fills_of_loop {fuel : Nat} {parts : List CompletedPart}
    {sent : List UploadPartRequest}
    (h : loop PartLoop.body fuel state = some ⟨.ok parts, sent⟩) :
    ∃ bodies, Fills state.file state.remaining bodies ∧
      ServedUpTo state.replies bodies.length := by
  induction fuel generalizing state with
  | zero => cases h
  | succ fuel ih =>
      cases hbody : state.body with
      | inl after =>
          rw [loop_go hbody] at h
          obtain ⟨buf, next, eTag, hremaining, hfill, hreply, rfl⟩ := body_go hbody
          obtain ⟨bodies, hbodies, hserved⟩ := ih h
          refine ⟨buf :: bodies, .part hremaining hfill hbodies, fun i hi => ?_⟩
          cases i with
          | zero => exact ⟨eTag, hreply⟩
          | succ i => exact hserved i (Nat.lt_of_succ_lt_succ hi)
      | inr outcome =>
          rw [loop_leave hbody] at h
          cases h
          obtain ⟨hzero, -⟩ := body_leave hbody rfl
          rw [hzero]
          exact ⟨[], .done _, fun i hi => absurd hi (Nat.not_lt_zero i)⟩

theorem loop_of_fills {file : FileReads} {remaining : Nat} {bodies : List (List UInt8)}
    (h : Fills file remaining bodies) (hfile : state.file = file)
    (hremaining : state.remaining = remaining)
    (hserved : ServedUpTo state.replies bodies.length) :
    ∃ parts sent, loop PartLoop.body (bodies.length + 1) state = some ⟨.ok parts, sent⟩ := by
  induction h generalizing state with
  | done file => exact ⟨_, _, loop_leave (body_done hremaining) _⟩
  | part more filled rest ih =>
      obtain ⟨eTag, hreply⟩ := hserved 0 (Nat.succ_pos _)
      rw [← hremaining, ← hfile] at filled
      rw [List.length_cons, loop_go (body_uploaded (by omega) filled hreply)]
      apply ih rfl
      · show state.remaining - _ = _
        rw [hremaining]
      · intro i hi
        exact hserved (i + 1) (Nat.succ_lt_succ hi)

/-- The parts are all there in the end exactly if the reads fill them and each goes up. -/
theorem allPartsUp_iff (replies : UploadReplies) (size : Nat) :
    (∃ fuel parts sent,
      uploadParts replies.opened replies.uploadPart size fuel = some ⟨.ok parts, sent⟩) ↔
        replies.AllPartsUp size := by
  cases hopened : replies.opened with
  | error error =>
      constructor
      · rintro ⟨fuel, parts, sent, h⟩
        cases h
      · rintro ⟨file, bodies, hfile, -⟩
        rw [hopened] at hfile
        cases hfile
  | ok file =>
      constructor
      · rintro ⟨fuel, parts, sent, h⟩
        obtain ⟨bodies, hfills, hserved⟩ := fills_of_loop h
        exact ⟨file, bodies, hopened, hfills, hserved⟩
      · rintro ⟨file', bodies, hfile, hfills, hserved⟩
        rw [hopened] at hfile
        cases hfile
        have hserved : ServedUpTo (PartLoop.start file replies.uploadPart size).replies
            bodies.length := hserved
        obtain ⟨parts, sent, h⟩ := loop_of_fills hfills rfl rfl hserved
        exact ⟨bodies.length + 1, parts, sent, h⟩

/-! ## Uploads left behind -/

/-- An upload that returns an error after it was created has been aborted. -/
def AbortsOnError (replies : UploadReplies) (bucket key contentType : Str) : Prop :=
  ∀ fuel outcome uploadId error,
    uploadFile replies bucket key contentType fuel = some outcome →
      outcome.result = .error error → replies.uploadId = .ok uploadId →
        .createMultipartUpload bucket key contentType ∈ outcome.calls →
          .abortMultipartUpload bucket key uploadId ∈ outcome.calls

/-- All parts of a created upload go up, and the request that completes it fails. -/
def UploadReplies.CompletionFails (replies : UploadReplies) : Prop :=
  ∃ size uploadId error, replies.metadata = .ok size ∧ MULTIPART_THRESHOLD < size ∧
    replies.uploadId = .ok uploadId ∧ replies.AllPartsUp size ∧
      replies.completeMultipartUpload = .error error

variable {replies : UploadReplies} {bucket key contentType uploadId : Str} {size fuel : Nat}

theorem uploadFile_large (hsize : replies.metadata = .ok size)
    (hlarge : MULTIPART_THRESHOLD < size) (hcreated : replies.uploadId = .ok uploadId)
    (bucket key contentType : Str) (fuel : Nat) :
    uploadFile replies bucket key contentType fuel =
      (uploadParts replies.opened replies.uploadPart size fuel).map fun outcome =>
        finishUpload replies bucket key uploadId
          (.createMultipartUpload bucket key contentType ::
            outcome.sent.map (.uploadPart bucket key uploadId)) outcome.result := by
  simp only [uploadFile, hsize, if_neg (Nat.not_le_of_lt hlarge), hcreated]

/-- Only a large file creates an upload. -/
theorem uploadFile_created {outcome : UploadOutcome}
    (h : uploadFile replies bucket key contentType fuel = some outcome)
    (hcreated : .createMultipartUpload bucket key contentType ∈ outcome.calls) :
    ∃ size, replies.metadata = .ok size ∧ MULTIPART_THRESHOLD < size := by
  unfold uploadFile at h
  split at h
  next =>
    cases h
    cases hcreated
  next size hsize =>
    split at h
    next =>
      split at h
      next =>
        cases h
        cases hcreated
      next data =>
        cases h
        cases List.mem_singleton.mp hcreated
    next hlarge => exact ⟨size, hsize, Nat.lt_of_not_le hlarge⟩

/-- Nothing but a failed completion leaves the parts of an upload behind. -/
theorem abortsOnError_iff (replies : UploadReplies) (bucket key contentType : Str) :
    AbortsOnError replies bucket key contentType ↔ ¬ replies.CompletionFails := by
  constructor
  · rintro haborts ⟨size, uploadId, error, hsize, hlarge, hcreated, hparts, hcomplete⟩
    obtain ⟨fuel, parts, sent, hsent⟩ := (allPartsUp_iff replies size).mpr hparts
    have houtcome := uploadFile_large hsize hlarge hcreated bucket key contentType fuel
    rw [hsent, Option.map_some] at houtcome
    have habort := haborts fuel _ uploadId error houtcome (by
      rw [finishUpload, hcomplete]
      rfl) hcreated (by simp [finishUpload])
    simp [finishUpload] at habort
  · intro hcomplete fuel outcome uploadId error houtcome herror hcreated hcall
    obtain ⟨size, hsize, hlarge⟩ := uploadFile_created houtcome hcall
    rw [uploadFile_large hsize hlarge hcreated] at houtcome
    obtain ⟨⟨result, sent⟩, hparts, rfl⟩ := Option.map_eq_some_iff.mp houtcome
    cases result with
    | error partError => simp [finishUpload]
    | ok parts =>
        cases hreply : replies.completeMultipartUpload with
        | ok _ =>
            rw [finishUpload, hreply] at herror
            cases herror
        | error completeError =>
            have hup := (allPartsUp_iff replies size).mp ⟨fuel, parts, sent, hparts⟩
            exact absurd ⟨size, uploadId, completeError, hsize, hlarge, hcreated, hup, hreply⟩
              hcomplete

/-! ## Uploads that return -/

/-- The loop over the parts of a large file is not left hanging by a file that comes
short. -/
def UploadReplies.Returns (replies : UploadReplies) : Prop :=
  ∀ size uploadId file, replies.metadata = .ok size → MULTIPART_THRESHOLD < size →
    replies.uploadId = .ok uploadId → replies.opened = .ok file →
      file.Brings size ∨ ∃ i error, replies.uploadPart.get i = .error error

theorem uploadFile_some_iff (replies : UploadReplies) (bucket key contentType : Str) :
    (∃ fuel outcome, uploadFile replies bucket key contentType fuel = some outcome) ↔
      replies.Returns := by
  constructor
  · rintro ⟨fuel, outcome, hsome⟩ size uploadId file hsize hlarge hcreated hopened
    rw [uploadFile_large hsize hlarge hcreated, hopened] at hsome
    obtain ⟨parts, hparts, -⟩ := Option.map_eq_some_iff.mp hsome
    exact (uploadParts_some_iff file replies.uploadPart size).mp ⟨fuel, parts, hparts⟩
  · intro hreturns
    cases hsize : replies.metadata with
    | error error => exact ⟨0, _, by simp only [uploadFile, hsize]; rfl⟩
    | ok size =>
        by_cases hsmall : size ≤ MULTIPART_THRESHOLD
        · cases hdata : replies.contents with
          | error error =>
              exact ⟨0, _, by simp only [uploadFile, hsize, if_pos hsmall, hdata]; rfl⟩
          | ok data =>
              exact ⟨0, _, by simp only [uploadFile, hsize, if_pos hsmall, hdata]; rfl⟩
        · have hlarge := Nat.lt_of_not_le hsmall
          cases hcreated : replies.uploadId with
          | error error =>
              exact ⟨0, _, by simp only [uploadFile, hsize, if_neg hsmall, hcreated]; rfl⟩
          | ok uploadId =>
              cases hopened : replies.opened with
              | error error =>
                  exact ⟨0, _, by
                    rw [uploadFile_large hsize hlarge hcreated, hopened]
                    rfl⟩
              | ok file =>
                  obtain ⟨fuel, parts, hparts⟩ :=
                    (uploadParts_some_iff file replies.uploadPart size).mpr
                      (hreturns size uploadId file hsize hlarge hcreated hopened)
                  exact ⟨fuel, _, by
                    rw [uploadFile_large hsize hlarge hcreated, hopened, hparts]
                    rfl⟩

/-! ## Uploads that succeed -/

/-- The request that puts the object in place is answered with success. -/
def UploadReplies.Stores (replies : UploadReplies) : Prop :=
  ∃ size, replies.metadata = .ok size ∧
    if size ≤ MULTIPART_THRESHOLD then replies.putObject = .ok ()
    else replies.completeMultipartUpload = .ok ()

theorem finishUpload_ok {calls : List S3Call} {result : Except String (List CompletedPart)}
    {text : Str} (h : (finishUpload replies bucket key uploadId calls result).result = .ok text) :
    replies.completeMultipartUpload = .ok () := by
  cases result with
  | error error => cases h
  | ok parts =>
      obtain ⟨done, hcomplete⟩ := ok_of_map_eq_ok h
      exact hcomplete

theorem uploadFile_stores {outcome : UploadOutcome} {text : Str}
    (h : uploadFile replies bucket key contentType fuel = some outcome)
    (hok : outcome.result = .ok text) : replies.Stores := by
  cases hsize : replies.metadata with
  | error error =>
      simp only [uploadFile, hsize] at h
      cases h
      cases hok
  | ok size =>
      refine ⟨size, hsize, ?_⟩
      by_cases hsmall : size ≤ MULTIPART_THRESHOLD
      · rw [if_pos hsmall]
        simp only [uploadFile, hsize, if_pos hsmall] at h
        cases hdata : replies.contents with
        | error error =>
            rw [hdata] at h
            cases h
            cases hok
        | ok data =>
            rw [hdata] at h
            cases h
            obtain ⟨done, hput⟩ := ok_of_map_eq_ok hok
            exact hput
      · rw [if_neg hsmall]
        cases hcreated : replies.uploadId with
        | error error =>
            simp only [uploadFile, hsize, if_neg hsmall, hcreated] at h
            cases h
            cases hok
        | ok uploadId =>
            rw [uploadFile_large hsize (Nat.lt_of_not_le hsmall) hcreated] at h
            obtain ⟨parts, -, rfl⟩ := Option.map_eq_some_iff.mp h
            exact finishUpload_ok hok

end AbixioUi.Multipart
