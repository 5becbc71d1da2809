import AbixioUi.App.TransferStep

/-! # Where a copy lands

The existence check asks the destination connection, but the copy between objects is
asked of the source client, whose server can only copy within itself. A copied item
is at its destination exactly where the two are one server.
-/

namespace AbixioUi

open Foundation

section Landing

variable {σ : Type} {network : Network σ}

/-- Where an endpoint is, for the client that serves it. -/
def TransferEndpoint.place (network : Network σ) (client : S3Client) :
    TransferEndpoint → Place σ
  | .s3 _ bucket key => .object (client.server network) bucket key
  | .local path => .file path

/-- The content is at the destination, and nothing else changed but the source of a move. -/
structure Lands (source destination : Place σ) (isMove : Bool) (before after : Stored σ) :
    Prop where
  arrived : ∃ content, before.contents source = some content ∧
    after.contents destination = some content
  others : ∀ place, place ≠ destination → ¬ (isMove = true ∧ place = source) →
    after.contents place = before.contents place

/-- What has to hold of the source for copies to land: a local file is uploaded to the
destination's server; an object is copied by its own server, under the name that
server reads. -/
def CopiesToDestination (network : Network σ) (sourceClient destinationClient : S3Client)
    (bucket key : Str) (isMove : Bool) : TransferEndpoint → Prop
  | .local _ => True
  | .s3 _ sourceBucket sourceKey =>
      ∀ read, network.readCopySource (sourceBucket ++ '/' :: sourceKey) = some read →
        read = (sourceBucket, sourceKey) ∧
          sourceClient.server network = destinationClient.server network ∧
          ¬ (isMove = true ∧ sourceBucket = bucket ∧ sourceKey = key)

variable [DecidableEq σ] {verdicts : TransferVerdicts} {platform : Platform}

@[simp] theorem put_self (storage : Stored σ) (place : Place σ) (content : Content) :
    (storage.put place content).contents place = some content :=
  Function.update_self _ _ _

theorem put_of_ne {storage : Stored σ} {place other : Place σ} {content : Content}
    (h : other ≠ place) : (storage.put place content).contents other = storage.contents other :=
  Function.update_of_ne h _ _

@[simp] theorem remove_self (storage : Stored σ) (place : Place σ) :
    (storage.remove place).contents place = none :=
  Function.update_self _ _ _

theorem remove_of_ne {storage : Stored σ} {place other : Place σ} (h : other ≠ place) :
    (storage.remove place).contents other = storage.contents other :=
  Function.update_of_ne h _ _

/-- A step that reports a copy has copied. -/
theorem ObjectStep.of_copied {transfer : ObjectTransfer} {overwritePolicy : OverwritePolicy}
    {isMove : Bool} {label label' : String} {storage : Stored σ} {found : Bool}
    {session : TransferSession σ}
    (h : ObjectStep network verdicts transfer overwritePolicy isMove label storage found
      (.ok (.copied label')) session) :
    ∃ content, transfer.CopySource network storage content ∧ session.store =
      if isMove then (storage.put (transfer.copyPlace network) content).remove
        (transfer.sourcePlace network)
      else storage.put (transfer.copyPlace network) content := by
  cases h with
  | copied content hmove hgoes hsource =>
      refine ⟨content, hsource, ?_⟩
      simp [hmove]
  | moved content hmove hgoes hsource =>
      refine ⟨content, hsource, ?_⟩
      simp [hmove]

/-- Under the condition every reported copy between objects has landed. -/
theorem objects_land {transfer : ObjectTransfer} {isMove : Bool} {storage after : Stored σ}
    {content : Content} (hsource : transfer.CopySource network storage content)
    (hafter : after = if isMove then (storage.put (transfer.copyPlace network) content).remove
        (transfer.sourcePlace network)
      else storage.put (transfer.copyPlace network) content)
    (h : CopiesToDestination network transfer.sourceClient transfer.destinationClient
      transfer.destinationBucket transfer.destinationKey isMove
      (.s3 transfer.sourceId transfer.sourceBucket transfer.sourceKey)) :
    Lands (transfer.sourcePlace network) (transfer.destinationPlace network) isMove storage
      after := by
  obtain ⟨read, hread, hcontent⟩ := hsource
  obtain ⟨rfl, hserver, hapart⟩ := h read hread
  have hcopy : transfer.copyPlace network = transfer.destinationPlace network := by
    rw [ObjectTransfer.copyPlace, ObjectTransfer.destinationPlace, hserver]
  rw [hcopy] at hafter
  cases hmove : isMove with
  | false =>
      simp only [hmove, Bool.false_eq_true, if_false] at hafter
      subst hafter
      exact ⟨⟨content, hcontent, put_self _ _ _⟩, fun place hplace _ => put_of_ne hplace⟩
  | true =>
      simp only [hmove, if_true] at hafter
      subst hafter
      have hne : transfer.destinationPlace network ≠ transfer.sourcePlace network := by
        intro heq
        simp only [ObjectTransfer.destinationPlace, ObjectTransfer.sourcePlace,
          Place.object.injEq] at heq
        exact hapart ⟨hmove, heq.2.1.symm, heq.2.2.symm⟩
      refine ⟨⟨content, hcontent, ?_⟩, ?_⟩
      · rw [remove_of_ne hne, put_self]
      · intro place hplace hsource
        rw [remove_of_ne fun heq => hsource ⟨rfl, heq⟩, put_of_ne hplace]

/-! ## Copies that miss -/

/-- The check fails, and every other request is served. -/
def uncheckedVerdicts : TransferVerdicts :=
  { servedVerdicts with check := .refused "unavailable" }

/-- Unchecked, a transfer whose source is there is reported as copied. -/
theorem runTransferStep_unchecked (transfer : ObjectTransfer)
    (overwritePolicy : OverwritePolicy) (isMove : Bool) {storage : Stored σ} {content : Content}
    (hsource : transfer.CopySource network storage content) :
    (runTransferStep network uncheckedVerdicts platform transfer.sourceClient
      (some transfer.destinationClient) transfer.item overwritePolicy isMove).Ends
      (Session.start storage) fun result session =>
        result = .ok (.copied (transfer.item.label platform)) ∧ session.store =
          if isMove then (storage.put (transfer.copyPlace network) content).remove
            (transfer.sourcePlace network)
          else storage.put (transfer.copyPlace network) content := by
  have hunique : ∀ content', transfer.CopySource network storage content' → content' = content := by
    rintro content' ⟨read', hread', hcontent'⟩
    obtain ⟨read, hread, hcontent⟩ := hsource
    rw [hread, Option.some.injEq] at hread'
    rw [← hread', hcontent, Option.some.injEq] at hcontent'
    exact hcontent'.symm
  apply Requests.Ends.mono (runTransferStep_objects transfer overwritePolicy isMove storage)
  intro result session hstep
  cases hstep with
  | conflict hfound _ | skipped hfound _ => cases hfound
  | copyFailed error store hfails _ _ => exact absurd hsource (hfails rfl content)
  | copied content' hmove _ hsource' =>
      refine ⟨rfl, ?_⟩
      simp [hmove, hunique content' hsource']
  | moved content' hmove _ hsource' =>
      refine ⟨rfl, ?_⟩
      simp [hmove, hunique content' hsource']
  | deleteFailed error content' store _ hfails _ _ _ => exact absurd rfl hfails

/-- A storage that holds the source and, with another content, what the server reads
the copy source for. -/
def misreadStorage (source read : Place σ) : Stored σ where
  contents := fun place =>
    if place = read then some [0] else if place = source then some [1] else none
  folders := fun _ => false

/-- What is somewhere after a move was there after its copy, and not at the source. -/
theorem contents_of_moved {storage : Stored σ} {source target place : Place σ}
    {isMove : Bool} {copied content : Content}
    (h : (if isMove then (storage.put target copied).remove source
      else storage.put target copied).contents place = some content) :
    (storage.put target copied).contents place = some content ∧
      ¬ (isMove = true ∧ place = source) := by
  cases hmove : isMove with
  | false =>
      rw [hmove, if_neg Bool.false_ne_true] at h
      exact ⟨h, fun hboth => Bool.false_ne_true hboth.1⟩
  | true =>
      rw [hmove, if_pos rfl] at h
      have hne : place ≠ source := by
        rintro rfl
        rw [remove_self] at h
        cases h
      rw [remove_of_ne hne] at h
      exact ⟨h, fun hboth => hne hboth.2⟩

/-- Where the condition fails, some copy is reported and has not arrived. -/
theorem exists_missed_copy {transfer : ObjectTransfer} (overwritePolicy : OverwritePolicy)
    {isMove : Bool}
    (h : ¬ CopiesToDestination network transfer.sourceClient transfer.destinationClient
      transfer.destinationBucket transfer.destinationKey isMove
      (.s3 transfer.sourceId transfer.sourceBucket transfer.sourceKey)) :
    ∃ storage : Stored σ,
      (runTransferStep network uncheckedVerdicts platform transfer.sourceClient
        (some transfer.destinationClient) transfer.item overwritePolicy isMove).Ends
        (Session.start storage) fun result session =>
          result = .ok (.copied (transfer.item.label platform)) ∧
            ¬ ∃ content, storage.contents (transfer.sourcePlace network) = some content ∧
              session.store.contents (transfer.destinationPlace network) = some content := by
  simp only [CopiesToDestination, not_forall] at h
  obtain ⟨read, hread, hmiss⟩ := h
  let readPlace : Place σ := .object (transfer.sourceClient.server network) read.1 read.2
  let storage := misreadStorage (transfer.sourcePlace network) readPlace
  have hsource : transfer.CopySource network storage [0] := ⟨read, hread, if_pos rfl⟩
  refine ⟨storage, (runTransferStep_unchecked transfer overwritePolicy isMove hsource).mono ?_⟩
  rintro result session ⟨hresult, hafter⟩
  refine ⟨hresult, ?_⟩
  rintro ⟨content, hbefore, harrived⟩
  rw [hafter] at harrived
  obtain ⟨hput, hkept⟩ := contents_of_moved harrived
  by_cases hserver : transfer.sourceClient.server network =
      transfer.destinationClient.server network
  · have hcopy : transfer.destinationPlace network = transfer.copyPlace network := by
      rw [ObjectTransfer.copyPlace, ObjectTransfer.destinationPlace, hserver]
    rw [hcopy, put_self, Option.some.injEq] at hput
    by_cases hname : read = (transfer.sourceBucket, transfer.sourceKey)
    · -- the copy is right, and the delete takes it away
      apply hmiss
      refine ⟨hname, hserver, fun hsame => hkept ⟨hsame.1, ?_⟩⟩
      rw [hcopy, ObjectTransfer.copyPlace, ObjectTransfer.sourcePlace, hsame.2.1, hsame.2.2]
    · -- another object than the source arrives
      have hother : transfer.sourcePlace network ≠ readPlace := by
        intro heq
        simp only [ObjectTransfer.sourcePlace, readPlace, Place.object.injEq] at heq
        exact hname (Prod.ext heq.2.1.symm heq.2.2.symm)
      have hone : storage.contents (transfer.sourcePlace network) = some [1] := by
        simp only [storage, misreadStorage]
        rw [if_neg hother, if_pos True.intro]
      rw [hone, ← hput] at hbefore
      cases hbefore
  · -- the copy stays on the server of the source
    have haway : ∀ bucket key, transfer.destinationPlace network ≠
        .object (transfer.sourceClient.server network) bucket key := by
      intro bucket key heq
      simp only [ObjectTransfer.destinationPlace, Place.object.injEq] at heq
      exact hserver heq.1.symm
    have hcopy : transfer.destinationPlace network ≠ transfer.copyPlace network := haway _ _
    have hnone : storage.contents (transfer.destinationPlace network) = none := by
      simp only [storage, misreadStorage]
      rw [if_neg (haway _ _), ObjectTransfer.sourcePlace, if_neg (haway _ _)]
    rw [put_of_ne hcopy, hnone] at hput
    cases hput

/-! ## Uploads -/

/-- An upload reported as copied has landed. -/
theorem upload_lands (sourceClient destinationClient : S3Client) (path : PathBuf)
    (destinationId bucket key : Str) (overwritePolicy : OverwritePolicy) (isMove : Bool)
    (storage : Stored σ) :
    (runTransferStep network verdicts platform sourceClient (some destinationClient)
      ⟨.local path, .s3 destinationId bucket key⟩ overwritePolicy isMove).Ends
      (Session.start storage) fun result session =>
        ∀ label, result = .ok (.copied label) →
          Lands (.file path) (.object (destinationClient.server network) bucket key) isMove
            storage session.store := by
  have huploads : ∀ session : TransferSession σ, session.store = storage →
      Requests.Ends (do
        uploadFile network verdicts destinationClient bucket key path
          (guessContentType network path)
        pure (TransferStepResult.copied
          (TransferItem.label platform ⟨.local path, .s3 destinationId bucket key⟩)))
        session fun result session =>
          ∀ label, result = .ok (.copied label) →
            Lands (.file path) (.object (destinationClient.server network) bucket key) isMove
              storage session.store := by
    intro session hstore
    rw [Requests.ends_bind]
    apply Requests.ends_send
    · intro answer store _ hdone label _
      rw [hstore] at hdone
      cases hcontent : storage.contents (.file path) with
      | none => simp [hcontent] at hdone
      | some content =>
          simp only [hcontent, Except.ok.injEq, Prod.mk.injEq] at hdone
          rw [← hdone.2]
          exact ⟨⟨content, hcontent, put_self _ _ _⟩, fun place hplace _ => put_of_ne hplace⟩
    · intro error _ label hcopied
      cases hcopied
    · intro error answer store _ _ label hcopied
      cases hcopied
  unfold runTransferStep
  simp only
  rw [Requests.ends_bind, Requests.Ends, headObject_succeeds]
  simp only
  split
  next => exact fun label hcopied => by cases hcopied
  next => exact fun label hcopied => by cases hcopied
  next => exact huploads _ rfl

end Landing

/-! ## The condition -/

/-- Every copied item of a transfer to an S3 destination is at its destination, and
changed nothing else, exactly if copies from its source land there. -/
theorem runTransferStep_lands_iff {σ : Type} [DecidableEq σ] (network : Network σ)
    (platform : Platform) (sourceClient destinationClient : S3Client) (source : TransferEndpoint)
    (destinationId bucket key : Str) (overwritePolicy : OverwritePolicy) (isMove : Bool) :
    (∀ verdicts storage,
      (runTransferStep network verdicts platform sourceClient (some destinationClient)
        ⟨source, .s3 destinationId bucket key⟩ overwritePolicy isMove).Ends
        (Session.start storage) fun result session =>
          ∀ label, result = .ok (.copied label) →
            Lands (source.place network sourceClient)
              (.object (destinationClient.server network) bucket key) isMove storage
              session.store) ↔
      CopiesToDestination network sourceClient destinationClient bucket key isMove source := by
  cases source with
  | «local» path =>
      constructor
      · exact fun _ => trivial
      · intro _ verdicts storage
        exact upload_lands sourceClient destinationClient path destinationId bucket key
          overwritePolicy isMove storage
  | s3 sourceId sourceBucket sourceKey =>
      let transfer : ObjectTransfer := ⟨sourceClient, destinationClient, sourceId, sourceBucket,
        sourceKey, destinationId, bucket, key⟩
      constructor
      · intro h
        by_contra hmiss
        obtain ⟨storage, hresult, hmissed⟩ :=
          @exists_missed_copy σ network _ platform transfer overwritePolicy isMove hmiss
        exact hmissed (h uncheckedVerdicts storage _ hresult).arrived
      · intro h verdicts storage
        refine (runTransferStep_objects transfer overwritePolicy isMove storage).mono ?_
        intro result session hstep label hcopied
        rw [hcopied] at hstep
        obtain ⟨content, hsource, hafter⟩ := hstep.of_copied
        exact objects_land hsource hafter h

def clientAt (endpoint : String) : S3Client where
  endpoint := endpoint.toList
  credentials := none
  region := "us-east-1".toList

/-- One object on the server at `http://a`. -/
def oneObject : Stored Str where
  contents := fun place =>
    if place = .object "http://a".toList "photos".toList "x".toList then some [7] else none
  folders := fun _ => false

/-- A copy to another server is reported, and the object is not there. -/
theorem copy_stays_on_source_server :
    ¬ ∀ verdicts storage,
      (runTransferStep plainNetwork verdicts .unix (clientAt "http://a")
        (some (clientAt "http://b")) ⟨.s3 CURRENT_CONNECTION_ID "photos".toList "x".toList,
          .s3 "b".toList "backup".toList "x".toList⟩ .ask false).Ends
        (Session.start storage) fun result session =>
          ∀ label, result = .ok (.copied label) →
            Lands (.object "http://a".toList "photos".toList "x".toList)
              (.object "http://b".toList "backup".toList "x".toList) false storage
              session.store := by
  intro h
  obtain ⟨content, -, harrived⟩ := (h servedVerdicts oneObject _ rfl).arrived
  have hnone : (runTransferStep plainNetwork servedVerdicts .unix (clientAt "http://a")
      (some (clientAt "http://b")) ⟨.s3 CURRENT_CONNECTION_ID "photos".toList "x".toList,
        .s3 "b".toList "backup".toList "x".toList⟩ .ask false
      (Session.start oneObject)).2.store.contents
        (.object "http://b".toList "backup".toList "x".toList) = none := by
    decide
  rw [hnone] at harrived
  cases harrived

end AbixioUi
