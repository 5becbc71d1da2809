import AbixioUi.Sync.Config
import AbixioUi.Sync.Reconcile

/-! # Whether a run can reach its own source

Both sides of a sync are read from one storage, so one stored object can be listed
on both sides. Validation compares the two endpoints for equality; what keeps a
run away from its source is that no destination address continues the source's
prefix or root.
-/

namespace AbixioUi

open Foundation

structure StoredFile where
  path : PathBuf
  metadata : FileMetadata

/-- The stored objects: buckets by connection id and name, and one file system. -/
structure Storage (platform : Platform) where
  bucket : Str → Str → List ObjectInfo
  keys_nodup : ∀ connectionId name, ((bucket connectionId name).map ObjectInfo.key).Nodup
  files : List StoredFile
  paths_nodup : (files.map StoredFile.path).Nodup
  wellFormed : ∀ file ∈ files, file.path.WellFormed platform

/-- What one side lists: the keys under its prefix, or the files below its root. -/
def Storage.listed {platform : Platform} (storage : Storage platform) (time : TimeCodec)
    (params : EndpointParams) : List ListedObject :=
  match params.kind, params.localPath with
  | .s3, _ =>
      ((storage.bucket params.connectionId params.bucket).filter
        fun object => decide (params.keyPrefix <+: object.key)).map (ObjectInfo.listed params)
  | .local, some root =>
      storage.files.filterMap fun file =>
        (file.path.namesBelow root).map fun names =>
          LocalFile.listed time platform root ⟨names, file.metadata⟩
  | .local, none => []

def Storage.enumerate {platform : Platform} (storage : Storage platform) (time : TimeCodec)
    (filters : SyncFilterSet) (clock : Nat → ClockReadings) (params : EndpointParams) :
    Option (List SyncObject) :=
  filterListing time filters clock ((storage.listed time params).map ListedObject.object)

/-- Whatever is stored, and under every mode, policy and filter, no transfer or
delete of the run plan names an object of the source listing. -/
def SparesSource (platform : Platform) (time : TimeCodec) (sync : SyncState) : Prop :=
  ∀ (storage : Storage platform) (filters : SyncFilterSet)
    (sourceClock destinationClock : Nat → ClockReadings) (mode : SyncMode) (policy : SyncPolicy)
    (compareMode : SyncCompareMode) (source destination : List SyncObject)
    (runPlan : SyncRunPlan),
    storage.enumerate time filters sourceClock (syncEndpointParams sync true) = some source →
    storage.enumerate time filters destinationClock (syncEndpointParams sync false) =
      some destination →
    prepareSyncRunPlan platform sync
      (buildSyncPlan source destination mode policy compareMode) = .ok runPlan →
    ∀ item ∈ runPlan.transfers ++ runPlan.deletes,
      ∀ listed ∈ storage.listed time (syncEndpointParams sync true),
        listed.object ∈ source → item.destination ≠ listed.address

/-! ## When the endpoints are apart -/

/-- Joining a relative path extends this base. -/
def destinationBase (keyPrefix : Str) : Str := joinS3Key keyPrefix []

/-- The source prefix does not begin the destination's base, and continues it, if
at all, by a slash: no relative path starts with one. -/
def KeysSeparated (sourcePrefix destinationPrefix : Str) : Prop :=
  ¬ sourcePrefix <+: destinationBase destinationPrefix ∧
    ∀ rest, rest ≠ [] → sourcePrefix = destinationBase destinationPrefix ++ rest →
      rest.head? = some '/'

/-- No path rebuilt below the destination root is a file below the source root that
is listed under another relative path. -/
def RootsSeparated (platform : Platform) (sourceRoot destinationRoot : PathBuf) : Prop :=
  ∀ sourceNames destinationNames,
    (sourceRoot.descend sourceNames).WellFormed platform →
    (destinationRoot.descend destinationNames).WellFormed platform →
    relativeNames platform sourceNames ≠ relativeNames platform destinationNames →
    destinationRoot.join platform
      (fragmentOf platform (relativeNames platform destinationNames)) ≠
        sourceRoot.descend sourceNames

def Separated (platform : Platform) (sync : SyncState) : Prop :=
  match sync.sourceKind, sync.destinationKind with
  | .s3, .s3 =>
      sync.sourceConnectionId = sync.destinationConnectionId →
        sync.sourceBucket = sync.destinationBucket →
        KeysSeparated sync.sourcePrefix sync.destinationPrefix
  | .local, .local =>
      ∀ sourceRoot destinationRoot, sync.sourceLocalPath = some sourceRoot →
        sync.destinationLocalPath = some destinationRoot →
        RootsSeparated platform sourceRoot destinationRoot
  | _, _ => True

theorem joinS3Key_eq_append (keyPrefix path : Str) :
    joinS3Key keyPrefix path = destinationBase keyPrefix ++ path := by
  unfold destinationBase joinS3Key
  split_ifs <;> simp

/-- A joined key stays clear of a separated source prefix. -/
theorem KeysSeparated.not_under {sourcePrefix destinationPrefix path : Str}
    (h : KeysSeparated sourcePrefix destinationPrefix) (hpath : path.head? ≠ some '/') :
    ¬ sourcePrefix <+: joinS3Key destinationPrefix path := by
  intro hunder
  rw [joinS3Key_eq_append] at hunder
  rcases List.prefix_or_prefix_of_prefix hunder (List.prefix_append _ _) with hbegins | hcontinues
  · exact h.1 hbegins
  · obtain ⟨rest, rfl⟩ := hcontinues
    by_cases hrest : rest = []
    · subst hrest
      exact h.1 (by simp)
    · have hslash := h.2 rest hrest rfl
      obtain ⟨tail, htail⟩ := (List.prefix_append_right_inj _).mp hunder
      apply hpath
      rw [← htail]
      cases rest with
      | nil => exact absurd rfl hrest
      | cons c rest => exact hslash

/-! ## Separated endpoints spare the source -/

section Listed

variable {platform : Platform} {time : TimeCodec} {storage : Storage platform}
variable {params : EndpointParams} {listed : ListedObject}

theorem listed_s3 (hkind : params.kind = .s3) (h : listed ∈ storage.listed time params) :
    ∃ info ∈ storage.bucket params.connectionId params.bucket,
      params.keyPrefix <+: info.key ∧ listed = info.listed params := by
  simp only [Storage.listed, hkind, List.mem_map, List.mem_filter, decide_eq_true_eq] at h
  obtain ⟨info, ⟨hinfo, hunder⟩, rfl⟩ := h
  exact ⟨info, hinfo, hunder, rfl⟩

theorem listed_local (hkind : params.kind = .local) (h : listed ∈ storage.listed time params) :
    ∃ root names metadata, params.localPath = some root ∧
      (root.descend names).WellFormed platform ∧
      listed = LocalFile.listed time platform root ⟨names, metadata⟩ := by
  cases hroot : params.localPath with
  | none => simp [Storage.listed, hkind, hroot] at h
  | some root =>
      simp only [Storage.listed, hkind, hroot, List.mem_filterMap, Option.map_eq_some_iff] at h
      obtain ⟨file, hfile, names, hnames, rfl⟩ := h
      have hpath := namesBelow_eq_some.mp hnames
      exact ⟨root, names, file.metadata, rfl, hpath ▸ storage.wellFormed file hfile, rfl⟩

theorem listed_head (h : listed ∈ storage.listed time params) :
    listed.object.relativePath.head? ≠ some '/' := by
  cases hkind : params.kind with
  | s3 =>
      obtain ⟨info, -, -, rfl⟩ := listed_s3 hkind h
      exact trimStartMatches_head? _ _
  | «local» =>
      obtain ⟨root, names, metadata, -, -, rfl⟩ := listed_local hkind h
      exact relativeNames_head? _ _

/-- What a side is enumerated to is what the enumeration of its endpoint passes on. -/
theorem enumerate_enumerated {filters : SyncFilterSet} {clock : Nat → ClockReadings}
    {kept : List SyncObject} (hpath : params.kind = .local → params.localPath.isSome)
    (h : storage.enumerate time filters clock params = some kept) :
    Enumerated time filters ((storage.listed time params).map ListedObject.object) kept := by
  unfold Storage.enumerate at h
  cases hkind : params.kind with
  | s3 =>
      have hlisted : (storage.listed time params).map ListedObject.object =
          listObjectsRecursiveForSync params.keyPrefix
            ((storage.bucket params.connectionId params.bucket).filter
              fun object => decide (params.keyPrefix <+: object.key)) := by
        simp only [Storage.listed, hkind, List.map_map]
        rfl
      rw [hlisted] at h ⊢
      exact .s3 h
  | «local» =>
      obtain ⟨root, hroot⟩ := Option.isSome_iff_exists.mp (hpath hkind)
      have hlisted : (storage.listed time params).map ListedObject.object =
          (storage.files.filterMap fun file => (file.path.namesBelow root).map
            fun names => (⟨names, file.metadata⟩ : LocalFile)).map
              fun file => (file.listed time platform root).object := by
        simp only [Storage.listed, hkind, hroot, List.map_filterMap, Option.map_map]
        rfl
      rw [hlisted] at h ⊢
      exact enumerated_files h

theorem enumerate_mem {filters : SyncFilterSet} {clock : Nat → ClockReadings}
    {kept : List SyncObject} (h : storage.enumerate time filters clock params = some kept)
    {object : SyncObject} (hobject : object ∈ kept) :
    ∃ listed ∈ storage.listed time params, listed.object = object :=
  List.mem_map.mp (mem_of_mem_filterListing h hobject)

end Listed

/-- The path of a plan item is on one of the sides. -/
theorem buildSyncPlan_item_path {source destination : List SyncObject} {mode : SyncMode}
    {policy : SyncPolicy} {compareMode : SyncCompareMode} {item : SyncPlanItem}
    (h : item ∈ (buildSyncPlan source destination mode policy compareMode).items) :
    ∃ object ∈ source ++ destination, object.relativePath = item.relativePath := by
  obtain ⟨hs, hd, hdecision⟩ := buildSyncPlan_item_spec h
  cases hsource : item.source with
  | some object =>
      obtain ⟨hmem, hpath⟩ := mem_of_ofListing_eq_some (hs ▸ hsource)
      exact ⟨object, List.mem_append_left _ hmem, hpath⟩
  | none =>
      cases hdestination : item.destination with
      | some object =>
          obtain ⟨hmem, hpath⟩ := mem_of_ofListing_eq_some (hd ▸ hdestination)
          exact ⟨object, List.mem_append_right _ hmem, hpath⟩
      | none => simp [hsource, hdestination, planDecision] at hdecision

/-- A run item writes or deletes the address of a plan item, and a written one has a
strategy. -/
theorem runPlan_item_spec {platform : Platform} {sync : SyncState} {plan : SyncPlan}
    {runPlan : SyncRunPlan} (hprepare : prepareSyncRunPlan platform sync plan = .ok runPlan)
    {item : SyncRunItem} (hitem : item ∈ runPlan.transfers ++ runPlan.deletes) :
    ∃ planItem ∈ plan.items,
      (syncEndpointParams sync false).address platform planItem.relativePath =
        .ok item.destination ∧
      ((∃ source, (syncEndpointParams sync true).address platform planItem.relativePath =
            .ok source ∧
          determineExecutionStrategy source item.destination = .ok item.strategy) ∨
        planItem.action = .delete) := by
  rcases List.mem_append.mp hitem with hitem | hitem
  · obtain ⟨planItem, hplan, -, hrun⟩ := mem_runPlan_transfers hprepare hitem
    obtain ⟨-, -, -, hs, hd, hstrategy⟩ := transferRunItem_ok hrun
    exact ⟨planItem, hplan, hd, .inl ⟨item.source, hs, hstrategy⟩⟩
  · obtain ⟨planItem, hplan, haction, hrun⟩ := mem_runPlan_deletes hprepare hitem
    obtain ⟨-, -, -, -, hd⟩ := deleteRunItem_ok hrun
    exact ⟨planItem, hplan, hd, .inr haction⟩

theorem address_s3 {platform : Platform} {params : EndpointParams} {path : Str}
    {address : TransferEndpoint} (hkind : params.kind = .s3)
    (h : params.address platform path = .ok address) :
    address = .s3 params.connectionId params.bucket (joinS3Key params.keyPrefix path) := by
  simp only [EndpointParams.address, hkind, Except.ok.injEq] at h
  exact h.symm

theorem address_local {platform : Platform} {params : EndpointParams} {path : Str}
    {address : TransferEndpoint} (hkind : params.kind = .local)
    (h : params.address platform path = .ok address) :
    ∃ root, params.localPath = some root ∧
      address = .local (root.join platform (fragmentOf platform path)) := by
  cases hroot : params.localPath with
  | none => simp [EndpointParams.address, hkind, hroot] at h
  | some root =>
      simp only [EndpointParams.address, hkind, hroot, Except.ok.injEq] at h
      exact ⟨root, rfl, h.symm⟩

/-- Between two local roots only deletes can be prepared. -/
theorem no_local_transfer {platform : Platform} {params : EndpointParams} {path : Str}
    {source : TransferEndpoint} {root : PathBuf} {strategy : SyncExecutionStrategy}
    (hkind : params.kind = .local) (hs : params.address platform path = .ok source) :
    determineExecutionStrategy source (.local root) ≠ .ok strategy := by
  obtain ⟨sourceRoot, -, rfl⟩ := address_local hkind hs
  simp [determineExecutionStrategy]

theorem sparesSource_of_separated {platform : Platform} {time : TimeCodec} {sync : SyncState}
    (h : Separated platform sync) : SparesSource platform time sync := by
  intro storage filters sourceClock destinationClock mode policy compareMode source destination
    runPlan hsource hdestination hprepare item hitem listed hlisted hkept haddress
  obtain ⟨planItem, hplan, hd, hwhy⟩ := runPlan_item_spec hprepare hitem
  cases hsk : sync.sourceKind with
  | s3 =>
      obtain ⟨info, -, hunder, rfl⟩ := listed_s3 (by simp [syncEndpointParams, hsk]) hlisted
      cases hdk : sync.destinationKind with
      | s3 =>
          have hpath : planItem.relativePath.head? ≠ some '/' := by
            obtain ⟨object, hobject, hsame⟩ := buildSyncPlan_item_path hplan
            rcases List.mem_append.mp hobject with hobject | hobject
            · obtain ⟨found, hfound, rfl⟩ := enumerate_mem hsource hobject
              exact hsame ▸ listed_head hfound
            · obtain ⟨found, hfound, rfl⟩ := enumerate_mem hdestination hobject
              exact hsame ▸ listed_head hfound
          rw [address_s3 (by simp [syncEndpointParams, hdk]) hd] at haddress
          obtain ⟨hconnection, hbucket, hkey⟩ := TransferEndpoint.s3.inj haddress
          simp only [Separated, hsk, hdk] at h
          have hnot := (h hconnection.symm hbucket.symm).not_under hpath
          apply hnot
          have hjoin : joinS3Key sync.destinationPrefix planItem.relativePath = info.key := hkey
          rw [hjoin]
          exact hunder
      | «local» =>
          obtain ⟨root, -, hlocal⟩ := address_local (by simp [syncEndpointParams, hdk]) hd
          rw [hlocal] at haddress
          exact nomatch haddress
  | «local» =>
      obtain ⟨root, names, metadata, hroot, hwell, rfl⟩ :=
        listed_local (by simp [syncEndpointParams, hsk]) hlisted
      cases hdk : sync.destinationKind with
      | s3 =>
          rw [address_s3 (by simp [syncEndpointParams, hdk]) hd] at haddress
          exact nomatch haddress
      | «local» =>
          rcases hwhy with ⟨address, hs, hstrategy⟩ | hdelete
          · rw [haddress] at hstrategy
            exact no_local_transfer (by simp [syncEndpointParams, hsk]) hs hstrategy
          · obtain ⟨-, -, ⟨object, hobject, hpath⟩, hmissing⟩ :=
              buildSyncPlan_deletes_iff.mp ⟨planItem, hplan, hdelete, rfl⟩
            obtain ⟨found, hfound, rfl⟩ := enumerate_mem hdestination hobject
            obtain ⟨destinationRoot, destinationNames, _, hdroot, hdwell, rfl⟩ :=
              listed_local (by simp [syncEndpointParams, hdk]) hfound
            obtain ⟨joinRoot, hjoinRoot, hjoin⟩ :=
              address_local (by simp [syncEndpointParams, hdk]) hd
            obtain rfl : destinationRoot = joinRoot := by
              rw [hdroot] at hjoinRoot
              exact Option.some.inj hjoinRoot
            simp only [Separated, hsk, hdk] at h
            have hrelative : relativeNames platform names ≠
                relativeNames platform destinationNames :=
              fun hsame => hmissing _ hkept (hsame.trans hpath)
            refine h root destinationRoot hroot hdroot names destinationNames hwell hdwell
              hrelative ?_
            have hlocal := TransferEndpoint.local.inj (hjoin.symm.trans haddress)
            rw [← hlocal, ← hpath]
            rfl

/-! ## Unseparated endpoints do not -/

/-- A storage whose buckets all hold one object. -/
def oneObjectStorage (platform : Platform) (key : Str) : Storage platform where
  bucket := fun _ _ => [⟨key, 1, [], []⟩]
  keys_nodup := by simp
  files := []
  paths_nodup := by simp
  wellFormed := by simp

theorem oneObjectStorage_listed (platform : Platform) (params : EndpointParams) {key : Str}
    (time : TimeCodec) (hkind : params.kind = .s3) (hunder : params.keyPrefix <+: key) :
    (oneObjectStorage platform key).listed time params =
      [ObjectInfo.listed params ⟨key, 1, [], []⟩] := by
  simp [Storage.listed, oneObjectStorage, hkind, hunder]

theorem enumerate_unfiltered {platform : Platform} (storage : Storage platform) (time : TimeCodec)
    (clock : Nat → ClockReadings) (params : EndpointParams) :
    storage.enumerate time ⟨[], [], [], [], [], []⟩ clock params =
      some ((storage.listed time params).map ListedObject.object) :=
  filterListing_empty time clock _

/-- Between two S3 endpoints every planned write or delete is prepared. -/
theorem exists_s3_item {platform : Platform} {sync : SyncState} {plan : SyncPlan}
    (hs : sync.sourceKind = .s3) (hd : sync.destinationKind = .s3) {planItem : SyncPlanItem}
    (hplan : planItem ∈ plan.items)
    (haction : planItem.action.transfers = true ∨ planItem.action.deletes = true) :
    ∃ runPlan, prepareSyncRunPlan platform sync plan = .ok runPlan ∧
      ∃ item ∈ runPlan.transfers ++ runPlan.deletes,
        item.destination = destinationObject sync planItem.relativePath := by
  have hsource : ∀ path, ∃ address,
      buildTransferEndpoint platform sync true path = .ok address := by
    intro path
    simp [buildTransferEndpoint, hs]
  obtain ⟨runPlan, hprepare⟩ : ∃ runPlan, prepareSyncRunPlan platform sync plan = .ok runPlan := by
    refine prepareSyncRunPlan_isOk ?_ ?_
    · intro item _ _
      obtain ⟨address, haddress⟩ := hsource item.relativePath
      exact transferRunItem_isOk haddress (buildTransferEndpoint_destination hd _)
    · intro item _ _
      exact deleteRunItem_isOk (buildTransferEndpoint_destination hd _)
  refine ⟨runPlan, hprepare, ?_⟩
  have htarget := (mem_operations_targets hd hprepare).mpr ⟨planItem, hplan, haction, rfl⟩
  obtain ⟨op, hop, htarget⟩ := List.mem_map.mp htarget
  rcases List.mem_append.mp hop with hop | hop
  · obtain ⟨item, hitem, rfl⟩ := List.mem_map.mp hop
    exact ⟨item, List.mem_append_left _ hitem, htarget⟩
  · obtain ⟨item, hitem, rfl⟩ := List.mem_map.mp hop
    exact ⟨item, List.mem_append_right _ hitem, htarget⟩

/-- Converging with every object overwritten touches every destination path. -/
theorem touches_every_destination {source destination : List SyncObject} {object : SyncObject}
    (hobject : object ∈ destination) :
    ∃ item ∈ (buildSyncPlan source destination .sync SyncPreset.converge.policy
        .alwaysOverwrite).items,
      item.relativePath = object.relativePath ∧
        (item.action.transfers = true ∨ item.action.deletes = true) := by
  have hlookup : ((SyncObjectMap.ofListing destination)[object.relativePath]?).isSome :=
    insertAll_isSome_iff.mpr ⟨object, hobject, rfl⟩
  have hplanned : ∃ item ∈ (buildSyncPlan source destination .sync SyncPreset.converge.policy
      .alwaysOverwrite).items, item.relativePath = object.relativePath :=
    exists_buildSyncPlan_item (.inr hlookup)
  obtain ⟨item, hitem, hpath⟩ := hplanned
  refine ⟨item, hitem, hpath, ?_⟩
  obtain ⟨-, hd, hdecision⟩ := buildSyncPlan_item_spec hitem
  rw [← hpath, ← hd] at hlookup
  obtain ⟨existing, hexisting⟩ := Option.isSome_iff_exists.mp hlookup
  rw [hexisting] at hdecision
  cases hsource : item.source with
  | none =>
      have haction : item.action = .delete := by
        have hpair : (SyncPlanAction.delete, SyncPlanReason.missingOnSource) =
            (item.action, item.reason) := by
          simpa [hsource, planDecision, missingOnSourceAction, SyncPreset.policy] using hdecision
        exact (Prod.mk.inj hpair).1.symm
      exact .inr (by simp [haction, SyncPlanAction.deletes])
  | some found =>
      rw [hsource] at hdecision
      have haction : item.action = .update := by
        simpa [upToDate] using planDecision_both rfl rfl hdecision
      exact .inl (by simp [haction, SyncPlanAction.transfers])

/-- The object that a joined key names is overwritten or deleted when it is listed as
a source object too. -/
theorem SparesSource.not_under {platform : Platform} {time : TimeCodec} {sync : SyncState}
    (h : SparesSource platform time sync) (hs : sync.sourceKind = .s3)
    (hd : sync.destinationKind = .s3)
    (hconnection : sync.sourceConnectionId = sync.destinationConnectionId)
    (hbucket : sync.sourceBucket = sync.destinationBucket) {path : Str}
    (hpath : path.head? ≠ some '/') :
    ¬ sync.sourcePrefix <+: joinS3Key sync.destinationPrefix path := by
  intro hunder
  -- one object at the joined key, listed on both sides
  have hsource := oneObjectStorage_listed platform (syncEndpointParams sync true) time
    (by simp [syncEndpointParams, hs]) hunder
  have hdestination := oneObjectStorage_listed platform (syncEndpointParams sync false) time
    (by simp [syncEndpointParams, hd]) (isPrefix_joinS3Key sync.destinationPrefix path)
  have hsourceKept := enumerate_unfiltered (oneObjectStorage platform
    (joinS3Key sync.destinationPrefix path)) time (fun _ => ⟨0, 0⟩) (syncEndpointParams sync true)
  have hdestinationKept := enumerate_unfiltered (oneObjectStorage platform
    (joinS3Key sync.destinationPrefix path)) time (fun _ => ⟨0, 0⟩) (syncEndpointParams sync false)
  rw [hsource, List.map_singleton] at hsourceKept
  rw [hdestination, List.map_singleton] at hdestinationKept
  obtain ⟨planItem, hplan, hplanPath, haction⟩ := touches_every_destination
    (List.mem_singleton_self _)
  obtain ⟨runPlan, hprepare, item, hitem, htarget⟩ := exists_s3_item hs hd hplan haction
  refine h _ _ _ _ _ _ _ _ _ runPlan hsourceKept hdestinationKept hprepare item hitem _
    (by rw [hsource]; exact List.mem_singleton_self _) (List.mem_singleton_self _) ?_
  have hlisted : planItem.relativePath = path :=
    hplanPath.trans (listedPath_joinS3Key _ hpath)
  rw [htarget, hlisted, destinationObject, ← hconnection, ← hbucket]
  rfl

theorem separated_of_sparesSource_s3 {platform : Platform} {time : TimeCodec} {sync : SyncState}
    (h : SparesSource platform time sync) (hs : sync.sourceKind = .s3)
    (hd : sync.destinationKind = .s3)
    (hconnection : sync.sourceConnectionId = sync.destinationConnectionId)
    (hbucket : sync.sourceBucket = sync.destinationBucket) :
    KeysSeparated sync.sourcePrefix sync.destinationPrefix := by
  constructor
  · intro hbegins
    have hx : ¬ sync.sourcePrefix <+: joinS3Key sync.destinationPrefix "x".toList :=
      h.not_under hs hd hconnection hbucket (by decide)
    rw [joinS3Key_eq_append] at hx
    exact hx (hbegins.trans (List.prefix_append _ _))
  · intro rest _ hcontinues
    by_contra hhead
    refine h.not_under hs hd hconnection hbucket hhead ?_
    rw [joinS3Key_eq_append, ← hcontinues]

/-! ## Local roots -/

/-- Keep what is older than a second when it is listed. -/
def settledOnly : SyncFilterSet := ⟨[], [], [], "1s".toList, [], []⟩

def listedEarly : ClockReadings := ⟨0, 0⟩
def listedLate : ClockReadings := ⟨10 ^ 9, 10 ^ 9⟩

section Settled

variable {time : TimeCodec} {object : SyncObject} {text : Str}

theorem parseAgeFilter_second (hage : time.parse "1s".toList = none) {now : Int}
    (hmin : minInstant ≤ now - 10 ^ 9) (hmax : now - 10 ^ 9 ≤ maxInstant) :
    parseAgeFilter time now "1s".toList = some (some (now - 10 ^ 9)) := by
  have htrim : trim "1s".toList = "1s".toList := by decide
  have hsegments : parseAgeSegments "1s".toList [] 0 false = some (some 1) := by decide
  have hne : "1s".toList ≠ [] := by decide
  simp only [parseAgeFilter, htrim, hne, hage, hsegments, if_false, one_mul, hmin, hmax,
    and_self, if_true]

theorem settledOnly_at (hage : time.parse "1s".toList = none)
    (hmodified : object.modified = some text)
    (hparse : time.parse text = some 0) {now : Int} (hmin : minInstant ≤ now - 10 ^ 9)
    (hmax : now - 10 ^ 9 ≤ maxInstant) :
    applySyncFilters time ⟨now, now⟩ object settledOnly =
      some (!decide (0 > now - 10 ^ 9)) := by
  have hempty : ∀ rejects, ageFilterPasses time now [] object.modified rejects = some true := by
    intro rejects
    simp [ageFilterPasses, parseAgeFilter, trim]
  have hpatterns : parsePatterns [] = [] := by decide
  have hsize : sizeFilterPasses settledOnly object.size = true := by
    simp [sizeFilterPasses, settledOnly, parseSizeFilter, trim]
  have hold : ageFilterPasses time now "1s".toList object.modified
      (fun instant cutoff => decide (instant > cutoff)) = some (!decide (0 > now - 10 ^ 9)) := by
    simp only [ageFilterPasses, parseAgeFilter_second hage hmin hmax, parseObjectModified,
      hmodified, Option.bind_some, hparse]
  simp only [applySyncFilters, hsize]
  simp only [settledOnly, hpatterns, if_true, hempty, hold, anyPatternMatches, andThenCheck,
    Option.map_some, Bool.not_false]

theorem settledOnly_early (hage : time.parse "1s".toList = none)
    (hmodified : object.modified = some text) (hparse : time.parse text = some 0) :
    applySyncFilters time listedEarly object settledOnly = some false :=
  settledOnly_at hage hmodified hparse (by decide) (by decide)

theorem settledOnly_late (hage : time.parse "1s".toList = none)
    (hmodified : object.modified = some text) (hparse : time.parse text = some 0) :
    applySyncFilters time listedLate object settledOnly = some true :=
  settledOnly_at hage hmodified hparse (by decide) (by decide)

/-- Listed late, everything is kept. -/
theorem filterListing_late (hage : time.parse "1s".toList = none)
    (hparse : time.parse text = some 0) {listing : List SyncObject}
    (hmodified : ∀ object ∈ listing, object.modified = some text) :
    filterListing time settledOnly (fun _ => listedLate) listing = some listing := by
  induction listing with
  | nil => rfl
  | cons object listing ih =>
      rw [filterListing, settledOnly_late hage (hmodified object (by simp)) hparse]
      simp only [ih fun other hother => hmodified other (List.mem_cons_of_mem _ hother)]
      rfl

/-- When only the last object is listed late, it alone is kept. -/
theorem filterListing_last (hage : time.parse "1s".toList = none)
    (hparse : time.parse text = some 0) {earlier : List SyncObject}
    (hearlier : ∀ object ∈ earlier, object.modified = some text)
    (hmodified : object.modified = some text) :
    filterListing time settledOnly
        (fun i => if i < earlier.length then listedEarly else listedLate)
        (earlier ++ [object]) = some [object] := by
  induction earlier with
  | nil =>
      simp [filterListing, settledOnly_late hage hmodified hparse]
  | cons first earlier ih =>
      have hfirst := settledOnly_early hage (hearlier first (by simp)) hparse
      have hrest := ih fun other hother => hearlier other (List.mem_cons_of_mem _ hother)
      simp [filterListing, hfirst, hrest]

end Settled

/-- Files of one byte from the epoch, the given one after the others. -/
def filesStorage (platform : Platform) (others : List PathBuf) (last : PathBuf)
    (hnodup : others.Nodup) (hothers : ∀ path ∈ others, path.WellFormed platform)
    (hlast : last.WellFormed platform) : Storage platform where
  bucket := fun _ _ => []
  keys_nodup := by simp
  files := (others.filter (· ≠ last) ++ [last]).map fun path => ⟨path, ⟨1, some 0⟩⟩
  paths_nodup := by
    simp only [List.map_map, Function.comp_def, List.map_id']
    simpa [List.nodup_append] using hnodup.filter _
  wellFormed := by
    simp only [List.forall_mem_map, List.mem_append, List.mem_filter, List.mem_singleton]
    rintro path (⟨hmem, -⟩ | rfl)
    · exact hothers path hmem
    · exact hlast

/-- A file of such a storage, as the walk below `root` lists it. -/
def epochFile (time : TimeCodec) (platform : Platform) (root : PathBuf) (names : List OsString) :
    ListedObject :=
  LocalFile.listed time platform root ⟨names, ⟨1, some 0⟩⟩

section Files

variable {platform : Platform} {time : TimeCodec} {others : List PathBuf} {last root : PathBuf}
variable {hnodup : others.Nodup} {hothers : ∀ path ∈ others, path.WellFormed platform}
variable {hlast : last.WellFormed platform} {params : EndpointParams}

theorem filesStorage_listed (hkind : params.kind = .local) (hroot : params.localPath = some root) :
    (filesStorage platform others last hnodup hothers hlast).listed time params =
      (others.filter (· ≠ last) ++ [last]).filterMap fun path =>
        (path.namesBelow root).map (epochFile time platform root) := by
  simp only [Storage.listed, hkind, hroot, filesStorage, List.filterMap_map]
  rfl

theorem mem_filesStorage_listed (hkind : params.kind = .local)
    (hroot : params.localPath = some root) {names : List OsString}
    (hmem : root.descend names ∈ others ∨ root.descend names = last) :
    epochFile time platform root names ∈
      (filesStorage platform others last hnodup hothers hlast).listed time params := by
  rw [filesStorage_listed hkind hroot, List.mem_filterMap]
  refine ⟨root.descend names, ?_, ?_⟩
  · by_cases hsame : root.descend names = last
    · simp [hsame]
    · simpa [hsame] using hmem
  · rw [namesBelow_eq_some.mpr rfl]
    rfl

theorem epochFile_of_listed (hkind : params.kind = .local)
    (hroot : params.localPath = some root) {listed : ListedObject}
    (h : listed ∈ (filesStorage platform others last hnodup hothers hlast).listed time params) :
    ∃ names, listed = epochFile time platform root names := by
  rw [filesStorage_listed hkind hroot, List.mem_filterMap] at h
  obtain ⟨path, -, hpath⟩ := h
  obtain ⟨names, -, rfl⟩ := Option.map_eq_some_iff.mp hpath
  exact ⟨names, rfl⟩

/-- The last file is listed last. -/
theorem filesStorage_listed_last (hkind : params.kind = .local)
    (hroot : params.localPath = some root) {names : List OsString}
    (hnames : last = root.descend names) :
    ∃ earlier, (filesStorage platform others last hnodup hothers hlast).listed time params =
      earlier ++ [epochFile time platform root names] := by
  rw [filesStorage_listed hkind hroot, List.filterMap_append]
  refine ⟨_, congrArg _ ?_⟩
  simp [namesBelow_eq_some.mpr hnames]

theorem filesStorage_modified (hkind : params.kind = .local)
    (hroot : params.localPath = some root) {text : Str} (hepoch : time.format 0 = some text)
    {object : SyncObject}
    (h : object ∈ ((filesStorage platform others last hnodup hothers hlast).listed time params).map
      ListedObject.object) : object.modified = some text := by
  obtain ⟨listed, hlisted, rfl⟩ := List.mem_map.mp h
  obtain ⟨names, rfl⟩ := epochFile_of_listed hkind hroot hlisted
  exact hepoch

/-- Listed late, every file is enumerated. -/
theorem filesStorage_enumerate_late (hage : time.parse "1s".toList = none)
    (hkind : params.kind = .local) (hroot : params.localPath = some root) {text : Str}
    (hepoch : time.format 0 = some text) :
    (filesStorage platform others last hnodup hothers hlast).enumerate time settledOnly
        (fun _ => listedLate) params =
      some (((filesStorage platform others last hnodup hothers hlast).listed time params).map
        ListedObject.object) :=
  filterListing_late hage (time.parse_format 0 text hepoch) fun _ hobject =>
    filesStorage_modified hkind hroot hepoch hobject

/-- Under some clock the last file alone is enumerated. -/
theorem filesStorage_enumerate_last (hage : time.parse "1s".toList = none)
    (hkind : params.kind = .local) (hroot : params.localPath = some root) {text : Str}
    (hepoch : time.format 0 = some text) {names : List OsString}
    (hnames : last = root.descend names) :
    ∃ clock, (filesStorage platform others last hnodup hothers hlast).enumerate time settledOnly
        clock params = some [(epochFile time platform root names).object] := by
  obtain ⟨earlier, hearlier⟩ := @filesStorage_listed_last platform time others last root hnodup
    hothers hlast params hkind hroot names hnames
  have hmodified : ∀ object ∈ (earlier ++ [epochFile time platform root names]).map
      ListedObject.object, object.modified = some text := by
    rw [← hearlier]
    exact fun object hobject => filesStorage_modified hkind hroot hepoch hobject
  rw [List.map_append, List.map_singleton] at hmodified
  refine ⟨fun i => if i < (earlier.map ListedObject.object).length then listedEarly
    else listedLate, ?_⟩
  rw [Storage.enumerate, hearlier, List.map_append, List.map_singleton]
  exact filterListing_last hage (time.parse_format 0 text hepoch)
    (fun object hobject => hmodified object (List.mem_append_left _ hobject))
    (hmodified _ (List.mem_append_right _ (List.mem_singleton_self _)))

end Files

/-- When every source path is found up to date, nothing is transferred. -/
theorem no_transfer_of_same_size {object : SyncObject} {destination : List SyncObject}
    (hfound : ∃ existing ∈ destination, existing.relativePath = object.relativePath)
    (hsize : ∀ existing ∈ destination, existing.size = object.size) {item : SyncPlanItem}
    (hitem : item ∈ (buildSyncPlan [object] destination .sync SyncPreset.converge.policy
      .sizeOnly).items) : item.action.transfers = false := by
  obtain ⟨hs, hd, hdecision⟩ := buildSyncPlan_item_spec hitem
  by_contra htransfers
  have hsource := isSome_of_planDecision_transfers hdecision (by simpa using htransfers)
  obtain ⟨found, hfoundSource⟩ := Option.isSome_iff_exists.mp hsource
  obtain ⟨hmem, hpath⟩ := mem_of_ofListing_eq_some (hs ▸ hfoundSource)
  obtain rfl : found = object := by simpa using hmem
  have hlookup : (item.destination).isSome := by
    rw [hd, ← hpath]
    exact insertAll_isSome_iff.mpr hfound
  obtain ⟨existing, hexisting⟩ := Option.isSome_iff_exists.mp hlookup
  have hsame := hsize existing (mem_of_ofListing_eq_some (hd ▸ hexisting)).1
  rw [hfoundSource, hexisting] at hdecision
  have haction := planDecision_both rfl rfl hdecision
  simp [upToDate, hsame] at haction
  simp [haction, SyncPlanAction.transfers] at htransfers

/-- To a local endpoint every planned delete is prepared, when nothing is transferred. -/
theorem exists_local_delete {platform : Platform} {sync : SyncState} {plan : SyncPlan}
    {root : PathBuf} (hd : sync.destinationKind = .local)
    (hroot : sync.destinationLocalPath = some root)
    (hkept : ∀ item ∈ plan.items, item.action.transfers = false) {planItem : SyncPlanItem}
    (hplan : planItem ∈ plan.items) (hdelete : planItem.action = .delete) :
    ∃ runPlan, prepareSyncRunPlan platform sync plan = .ok runPlan ∧
      ∃ item ∈ runPlan.transfers ++ runPlan.deletes, item.destination =
        .local (root.join platform (fragmentOf platform planItem.relativePath)) := by
  have haddress : ∀ path, buildTransferEndpoint platform sync false path =
      .ok (.local (root.join platform (fragmentOf platform path))) := by
    intro path
    simp [buildTransferEndpoint, hd, hroot, fragmentOf]
  obtain ⟨runPlan, hprepare⟩ := prepareSyncRunPlan_isOk
    (fun item hitem haction => absurd haction (by simp [hkept item hitem]))
    (fun item _ _ => deleteRunItem_isOk (haddress item.relativePath))
  have hdeletes : planItem.action.deletes = true := by
    rw [hdelete]
    rfl
  obtain ⟨item, hitem, hrun⟩ := forall₂_exists_right (prepareSyncRunPlan_ok hprepare).2.1
    (List.mem_filter.mpr ⟨hplan, hdeletes⟩)
  obtain ⟨-, -, -, -, hdestination⟩ := deleteRunItem_ok hrun
  rw [← buildTransferEndpoint_eq, haddress] at hdestination
  exact ⟨runPlan, hprepare, item, List.mem_append_right _ hitem, (Except.ok.inj hdestination).symm⟩

theorem separated_of_sparesSource_local {platform : Platform} {time : TimeCodec}
    {sync : SyncState} {sourceRoot destinationRoot : PathBuf} {text : Str}
    (hage : time.parse "1s".toList = none) (hepoch : time.format 0 = some text)
    (h : SparesSource platform time sync) (hs : sync.sourceKind = .local)
    (hd : sync.destinationKind = .local) (hsroot : sync.sourceLocalPath = some sourceRoot)
    (hdroot : sync.destinationLocalPath = some destinationRoot) :
    RootsSeparated platform sourceRoot destinationRoot := by
  intro sourceNames destinationNames hsourceWell hdestinationWell hrelative hjoin
  -- the destination holds the deleted path and the source file's own path
  have hnodup : [destinationRoot.descend destinationNames,
      destinationRoot.descend sourceNames].Nodup := by
    have hne : destinationNames ≠ sourceNames := fun e => hrelative (by rw [e])
    simpa using fun e => hne (descend_injective destinationRoot e)
  have hothers : ∀ path ∈ [destinationRoot.descend destinationNames,
      destinationRoot.descend sourceNames], path.WellFormed platform := by
    have hboth : (destinationRoot.descend sourceNames).WellFormed platform :=
      WellFormed_descend.mpr ⟨(WellFormed_descend.mp hdestinationWell).1,
        (WellFormed_descend.mp hsourceWell).2⟩
    simpa using ⟨hdestinationWell, hboth⟩
  let storage := filesStorage platform _ (sourceRoot.descend sourceNames) hnodup hothers hsourceWell
  have hskind : (syncEndpointParams sync true).kind = .local := by simp [syncEndpointParams, hs]
  have hdkind : (syncEndpointParams sync false).kind = .local := by simp [syncEndpointParams, hd]
  have hspath : (syncEndpointParams sync true).localPath = some sourceRoot := by
    simp [syncEndpointParams, hsroot]
  have hdpath : (syncEndpointParams sync false).localPath = some destinationRoot := by
    simp [syncEndpointParams, hdroot]
  obtain ⟨clock, hsourceKept⟩ : ∃ clock, storage.enumerate time settledOnly clock
      (syncEndpointParams sync true) =
        some [(epochFile time platform sourceRoot sourceNames).object] :=
    filesStorage_enumerate_last hage hskind hspath hepoch rfl
  have hdestinationKept : storage.enumerate time settledOnly (fun _ => listedLate)
      (syncEndpointParams sync false) =
        some ((storage.listed time (syncEndpointParams sync false)).map ListedObject.object) :=
    filesStorage_enumerate_late hage hdkind hdpath hepoch
  have hlistedAt : ∀ names, destinationRoot.descend names ∈
      [destinationRoot.descend destinationNames, destinationRoot.descend sourceNames] →
      (epochFile time platform destinationRoot names).object ∈
        (storage.listed time (syncEndpointParams sync false)).map ListedObject.object :=
    fun names hmem => List.mem_map_of_mem (mem_filesStorage_listed hdkind hdpath (.inl hmem))
  -- the source file is found at the destination, where the deleted path is an extra
  have hkept : ∀ item ∈ (buildSyncPlan
      [(epochFile time platform sourceRoot sourceNames).object]
      ((storage.listed time (syncEndpointParams sync false)).map ListedObject.object) .sync
      SyncPreset.converge.policy .sizeOnly).items, item.action.transfers = false := by
    intro item hitem
    refine no_transfer_of_same_size ⟨_, hlistedAt sourceNames (by simp), rfl⟩ ?_ hitem
    rintro _ hobject
    obtain ⟨listed, hlisted, rfl⟩ := List.mem_map.mp hobject
    obtain ⟨names, rfl⟩ := epochFile_of_listed hdkind hdpath hlisted
    rfl
  obtain ⟨planItem, hplan, hdelete, hpath⟩ : ∃ item ∈ (buildSyncPlan
      [(epochFile time platform sourceRoot sourceNames).object]
      ((storage.listed time (syncEndpointParams sync false)).map ListedObject.object) .sync
      SyncPreset.converge.policy .sizeOnly).items,
        item.action = .delete ∧ item.relativePath = relativeNames platform destinationNames := by
    refine buildSyncPlan_deletes_iff.mpr ⟨by decide, rfl,
      ⟨_, hlistedAt destinationNames (by simp), rfl⟩, ?_⟩
    intro object hobject
    obtain rfl : object = (epochFile time platform sourceRoot sourceNames).object := by
      simpa using hobject
    exact hrelative
  obtain ⟨runPlan, hprepare, item, hitem, htarget⟩ :=
    exists_local_delete hd hdroot hkept hplan hdelete
  refine h storage settledOnly _ _ _ _ _ _ _ runPlan hsourceKept hdestinationKept hprepare item
    hitem (epochFile time platform sourceRoot sourceNames)
    (mem_filesStorage_listed hskind hspath (.inr rfl)) (List.mem_singleton_self _) ?_
  rw [htarget, hpath, hjoin]
  rfl

/-- A sync, accepted or not, spares its source whatever is stored and planned exactly
when its endpoints are separated. The timestamp codec reads no bare age and writes
the epoch. -/
theorem sparesSource_iff (platform : Platform) (time : TimeCodec) (sync : SyncState)
    (text : Str) (hage : time.parse "1s".toList = none) (hepoch : time.format 0 = some text) :
    SparesSource platform time sync ↔ Separated platform sync := by
  constructor
  · intro h
    unfold Separated
    cases hs : sync.sourceKind <;> cases hd : sync.destinationKind
    · exact separated_of_sparesSource_s3 h hs hd
    · trivial
    · trivial
    · exact fun _ _ => separated_of_sparesSource_local hage hepoch h hs hd
  · exact sparesSource_of_separated

/-- Roots of which neither lies below the other are separated. -/
theorem rootsSeparated_of_apart {platform : Platform} {sourceRoot destinationRoot : PathBuf}
    (hsource : ¬ sourceRoot.components <+: destinationRoot.components)
    (hdestination : ¬ destinationRoot.components <+: sourceRoot.components) :
    RootsSeparated platform sourceRoot destinationRoot := by
  intro sourceNames destinationNames _ hwell _ hjoin
  have hparse := parsePath_fragment (WellFormed_descend.mp hwell).2
  have hcomponents := congrArg PathBuf.components hjoin
  simp only [PathBuf.join, hparse, Option.isSome_none, Bool.false_eq_true, if_false,
    descend_components] at hcomponents
  have hbelow : destinationRoot.components <+:
      sourceRoot.components ++ sourceNames.map .normal := ⟨_, hcomponents⟩
  rcases List.prefix_or_prefix_of_prefix hbelow (List.prefix_append _ _) with h | h
  · exact hdestination h
  · exact hsource h

/-! ## A destination prefix that contains the source prefix -/

/-- A codec that knows the epoch alone. -/
def epochCodec : TimeCodec where
  parse := fun text => if text = "1970-01-01T00:00:00Z".toList then some 0 else none
  format := fun instant => if instant = 0 then some "1970-01-01T00:00:00Z".toList else none
  parse_format := by
    intro instant text h
    split_ifs at h with hzero
    obtain rfl := Option.some.inj h
    simp [hzero]

theorem sparesSource_iff_two_buckets :
    SparesSource .unix epochCodec twoBuckets ↔ Separated .unix twoBuckets :=
  sparesSource_iff .unix epochCodec twoBuckets "1970-01-01T00:00:00Z".toList (by decide) (by decide)

def nestedSync : SyncState :=
  { SyncState.betweenBuckets "photos".toList "photos".toList with
    sourcePrefix := "2026/".toList }

/-- Syncing `2026/` to the root of its own bucket is accepted, and deletes or
overwrites what it reads. -/
theorem nested_source_not_spared :
    ¬ ∀ (platform : Platform) (time : TimeCodec) (sync : SyncState),
      validateSyncConfig sync = .ok () → SparesSource platform time sync := by
  intro h
  have hspares := h .unix noTimes nestedSync rfl
  have hclear : ¬ nestedSync.sourcePrefix <+:
      joinS3Key nestedSync.destinationPrefix "2026/a".toList :=
    hspares.not_under rfl rfl rfl rfl (by decide)
  exact hclear (by decide)

end AbixioUi
