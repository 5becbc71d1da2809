import AbixioUi.Sync.Planner
import AbixioUi.Sync.RunPlan

/-! # Planning again after a finished run

A successful transfer leaves an object with the source's size, but its time and
its etag are the destination's own: nothing in the program sets them. The second
plan compares against those.
-/

namespace AbixioUi

open Foundation

/-- What the destination assigns to an object when it is written. -/
structure WriteStamp where
  modified : Str
  etag : Str
deriving DecidableEq, Repr

/-- The destination object a successful transfer leaves; local files have no etag. -/
def writtenObject (stamp : Str → WriteStamp) (item : SyncRunItem) : SyncObject where
  relativePath := item.relativePath
  size := item.bytes
  modified := some (stamp item.relativePath).modified
  etag := match item.destination with
    | .s3 .. => some (stamp item.relativePath).etag
    | .local _ => none
  isDirMarker := false

def SyncRunPlan.touches (runPlan : SyncRunPlan) (path : Str) : Bool :=
  (runPlan.transfers ++ runPlan.deletes).any fun item => decide (item.relativePath = path)

/-- The destination listing after every transfer and delete succeeded. -/
def destinationAfterRun (runPlan : SyncRunPlan) (stamp : Str → WriteStamp)
    (destination : List SyncObject) : List SyncObject :=
  (destination.filter fun object => !runPlan.touches object.relativePath) ++
    runPlan.transfers.map (writtenObject stamp)

/-- The first plan writes a source object that the destination lacks or that is
not up to date there. -/
def NeedsWrite (mode : SyncMode) (compareMode : SyncCompareMode) (source : SyncObject)
    (destination : Option SyncObject) : Prop :=
  ∀ object, destination = some object → upToDate mode compareMode source object = false

/-- What the comparison reads of the source agrees with what the destination
assigned on writing. -/
def StampMatches (mode : SyncMode) (compareMode : SyncCompareMode)
    (destinationKind : SyncEndpointKind) (source : SyncObject) (stamp : WriteStamp) : Prop :=
  match compareMode with
  | .alwaysOverwrite => False
  | .sizeOnly => True
  | .sizeAndModTime => source.modified = some stamp.modified
  | .updateIfSourceNewer =>
      source.modified = some stamp.modified ∨
        (mode = .copy ∧ notNewer source.modified (some stamp.modified) = true)
  | .checksumIfAvailable => destinationKind = .s3 ∧ source.etag = some stamp.etag

section Resync

variable {platform : Platform} {sync : SyncState} {mode : SyncMode} {policy : SyncPolicy}
variable {compareMode : SyncCompareMode} {source destination : List SyncObject}
variable {stamp : Str → WriteStamp} {runPlan : SyncRunPlan}

theorem upToDate_written_iff {planItem : SyncPlanItem} {item : SyncRunItem} {object : SyncObject}
    (hitem : transferRunItem platform sync planItem = .ok item)
    (hsource : planItem.source = some object) :
    upToDate mode compareMode object (writtenObject stamp item) = true ↔
      StampMatches mode compareMode sync.destinationKind object (stamp planItem.relativePath) := by
  obtain ⟨hpath, -, hbytes, -, hdestination, -⟩ := transferRunItem_ok hitem
  have hsize : object.size = item.bytes := by simp [hbytes, hsource, objectSize]
  have hetag : (writtenObject stamp item).etag =
      if sync.destinationKind = .s3 then some (stamp planItem.relativePath).etag else none := by
    unfold EndpointParams.address syncEndpointParams at hdestination
    cases hkind : sync.destinationKind with
    | s3 =>
        simp only [hkind, Bool.false_eq_true, if_false, Except.ok.injEq] at hdestination
        simp [writtenObject, ← hdestination, hpath]
    | «local» =>
        cases hroot : sync.destinationLocalPath with
        | none => simp [hkind, hroot] at hdestination
        | some root =>
            simp only [hkind, hroot, Bool.false_eq_true, if_false, Except.ok.injEq] at hdestination
            simp [writtenObject, ← hdestination]
  have hmodified : (writtenObject stamp item).modified =
      some (stamp planItem.relativePath).modified := by
    simp [writtenObject, hpath]
  have hwritten : (writtenObject stamp item).size = object.size := hsize.symm
  cases compareMode with
  | alwaysOverwrite => simp [upToDate, StampMatches]
  | sizeOnly => simp [upToDate, StampMatches, hwritten]
  | sizeAndModTime => simp [upToDate, StampMatches, hwritten, hmodified]
  | updateIfSourceNewer => simp [upToDate, StampMatches, hwritten, hmodified]
  | checksumIfAvailable =>
      by_cases hkind : sync.destinationKind = .s3
      · simp only [upToDate, sameChecksum, StampMatches, hwritten, hetag, hkind, if_true]
        cases object.etag <;> simp
      · simp only [upToDate, sameChecksum, StampMatches, hwritten, hetag, hkind, if_false]
        cases object.etag <;> simp

/-! ## The destination listing after the run -/

theorem lookup_destinationAfterRun (runPlan : SyncRunPlan) (stamp : Str → WriteStamp)
    (destination : List SyncObject) (path : Str) :
    (SyncObjectMap.ofListing (destinationAfterRun runPlan stamp destination))[path]? =
      ((SyncObjectMap.ofListing (runPlan.transfers.map (writtenObject stamp)))[path]?).or
        (if runPlan.touches path then none else (SyncObjectMap.ofListing destination)[path]?) := by
  have hkept : (insertAll SyncObject.relativePath
      (destination.filter fun object => !runPlan.touches object.relativePath))[path]? =
        if !runPlan.touches path then (insertAll SyncObject.relativePath destination)[path]?
        else none :=
    insertAll_filter_getElem? (fun p => !runPlan.touches p) destination path
  unfold destinationAfterRun SyncObjectMap.ofListing
  rw [insertAll_append_getElem?, hkept]
  cases runPlan.touches path <;> rfl

theorem runPlan_touches_iff
    (hprepare : prepareSyncRunPlan platform sync
      (buildSyncPlan source destination mode policy compareMode) = .ok runPlan) (path : Str) :
    runPlan.touches path = true ↔
      ∃ planned, planItem (.ofListing source) (.ofListing destination) mode policy compareMode
          path = some planned ∧
        (planned.action.transfers = true ∨ planned.action.deletes = true) := by
  have htouch : runPlan.touches path = true ↔
      path ∈ (runPlan.transfers.map SyncRunItem.relativePath) ++
        runPlan.deletes.map SyncRunItem.relativePath := by
    simp [SyncRunPlan.touches, ← List.map_append, or_and_right, exists_or]
  rw [htouch, runPlan_transfers_paths hprepare, runPlan_deletes_paths hprepare]
  simp only [List.mem_append, List.mem_map, List.mem_filter, mem_buildSyncPlan_items]
  constructor
  · rintro (⟨planned, ⟨hplanned, haction⟩, rfl⟩ | ⟨planned, ⟨hplanned, haction⟩, rfl⟩)
    · exact ⟨planned, hplanned, .inl haction⟩
    · exact ⟨planned, hplanned, .inr haction⟩
  · rintro ⟨planned, hplanned, haction⟩
    obtain ⟨hpath, -⟩ := planItem_eq_some hplanned
    rw [← hpath] at hplanned
    rcases haction with haction | haction
    · exact .inl ⟨planned, ⟨hplanned, haction⟩, hpath⟩
    · exact .inr ⟨planned, ⟨hplanned, haction⟩, hpath⟩

variable {planned : SyncPlanItem} {path : Str}

/-- A path that the plan transfers holds the written object. -/
theorem lookup_after_transfer
    (hprepare : prepareSyncRunPlan platform sync
      (buildSyncPlan source destination mode policy compareMode) = .ok runPlan)
    (hplanned : planItem (.ofListing source) (.ofListing destination) mode policy compareMode
      path = some planned)
    (haction : planned.action.transfers = true) :
    ∃ item, transferRunItem platform sync planned = .ok item ∧
      (SyncObjectMap.ofListing (destinationAfterRun runPlan stamp destination))[path]? =
        some (writtenObject stamp item) := by
  obtain ⟨hpath, -⟩ := planItem_eq_some hplanned
  have hmem : planned ∈ ((buildSyncPlan source destination mode policy compareMode).items.filter
      (·.action.transfers)) :=
    List.mem_filter.mpr ⟨mem_buildSyncPlan_items.mpr (hpath ▸ hplanned), haction⟩
  obtain ⟨item, hitem, hrun⟩ := forall₂_exists_right (prepareSyncRunPlan_ok hprepare).1 hmem
  refine ⟨item, hrun, ?_⟩
  have hnodup : ((runPlan.transfers.map (writtenObject stamp)).map
      SyncObject.relativePath).Nodup := by
    have hsame : (runPlan.transfers.map (writtenObject stamp)).map SyncObject.relativePath =
        runPlan.transfers.map SyncRunItem.relativePath := by
      simp [writtenObject, Function.comp_def]
    rw [hsame, runPlan_transfers_paths hprepare]
    exact (nodup_buildSyncPlan_paths source destination mode policy compareMode).sublist
      (List.filter_sublist.map _)
  have hwritten : (SyncObjectMap.ofListing
      (runPlan.transfers.map (writtenObject stamp)))[path]? = some (writtenObject stamp item) := by
    refine (insertAll_eq_some_iff hnodup).mpr ⟨List.mem_map_of_mem hitem, ?_⟩
    exact (transferRunItem_ok hrun).1.trans hpath
  rw [lookup_destinationAfterRun, hwritten, Option.some_or]

/-- A path that is not transferred is gone when the plan deletes it, and as it was
otherwise. -/
theorem lookup_after_no_transfer
    (hprepare : prepareSyncRunPlan platform sync
      (buildSyncPlan source destination mode policy compareMode) = .ok runPlan)
    (hno : ∀ planned, planItem (.ofListing source) (.ofListing destination) mode policy
      compareMode path = some planned → planned.action.transfers = false) :
    (SyncObjectMap.ofListing (destinationAfterRun runPlan stamp destination))[path]? =
      if runPlan.touches path then none else (SyncObjectMap.ofListing destination)[path]? := by
  have hnone : (SyncObjectMap.ofListing
      (runPlan.transfers.map (writtenObject stamp)))[path]? = none := by
    refine ofListing_eq_none_iff.mpr ?_
    intro object hobject hpath
    obtain ⟨item, hitem, rfl⟩ := List.mem_map.mp hobject
    have hmem : path ∈ runPlan.transfers.map SyncRunItem.relativePath :=
      hpath ▸ List.mem_map_of_mem hitem
    rw [runPlan_transfers_paths hprepare] at hmem
    obtain ⟨planned, hplanned, rfl⟩ := List.mem_map.mp hmem
    obtain ⟨hin, haction⟩ := List.mem_filter.mp hplanned
    simp [hno planned (mem_buildSyncPlan_items.mp hin)] at haction
  rw [lookup_destinationAfterRun, hnone, Option.none_or]

/-! ## Three kinds of path under the Converge policy -/

section Converge

variable {object : SyncObject}

theorem lookup_of_needsWrite (stamp : Str → WriteStamp)
    (hprepare : prepareSyncRunPlan platform sync
      (buildSyncPlan source destination mode SyncPreset.converge.policy compareMode) = .ok runPlan)
    (hsource : (SyncObjectMap.ofListing source)[path]? = some object)
    (hneeds : NeedsWrite mode compareMode object (SyncObjectMap.ofListing destination)[path]?) :
    ∃ planned item, planned.source = some object ∧ planned.relativePath = path ∧
      transferRunItem platform sync planned = .ok item ∧
      (SyncObjectMap.ofListing (destinationAfterRun runPlan stamp destination))[path]? =
        some (writtenObject stamp item) := by
  cases hplanned : planItem (.ofListing source) (.ofListing destination) mode
      SyncPreset.converge.policy compareMode path with
  | none =>
      cases hd : (SyncObjectMap.ofListing destination)[path]? <;>
        simp [planItem, planDecision, hsource, hd] at hplanned
      split at hplanned <;> simp at hplanned
  | some planned =>
      obtain ⟨hpath, hs, -, hdecision⟩ := planItem_eq_some hplanned
      have haction : planned.action.transfers = true := by
        rw [hsource] at hdecision
        cases hd : (SyncObjectMap.ofListing destination)[path]? with
        | none =>
            simp only [hd, planDecision, Option.some.injEq, Prod.mk.injEq] at hdecision
            simp [← hdecision.1, SyncPlanAction.transfers]
        | some existing =>
            rw [hd] at hdecision
            have := planDecision_both rfl rfl hdecision
            rw [hneeds existing hd] at this
            simp [this, SyncPlanAction.transfers]
      obtain ⟨item, hitem, hlookup⟩ := lookup_after_transfer hprepare hplanned haction
      exact ⟨planned, item, hs.trans hsource, hpath, hitem, hlookup⟩

theorem lookup_of_upToDate {existing : SyncObject}
    (hprepare : prepareSyncRunPlan platform sync
      (buildSyncPlan source destination mode SyncPreset.converge.policy compareMode) = .ok runPlan)
    (hsource : (SyncObjectMap.ofListing source)[path]? = some object)
    (hdestination : (SyncObjectMap.ofListing destination)[path]? = some existing)
    (hsame : upToDate mode compareMode object existing = true) :
    (SyncObjectMap.ofListing (destinationAfterRun runPlan stamp destination))[path]? =
      some existing := by
  have hskip : ∀ planned, planItem (.ofListing source) (.ofListing destination) mode
      SyncPreset.converge.policy compareMode path = some planned → planned.action = .skip := by
    intro planned hplanned
    obtain ⟨-, -, -, hdecision⟩ := planItem_eq_some hplanned
    rw [hsource, hdestination] at hdecision
    simpa [hsame] using planDecision_both rfl rfl hdecision
  have htouches : runPlan.touches path = false := by
    rw [Bool.eq_false_iff]
    intro htouch
    obtain ⟨planned, hplanned, haction⟩ := (runPlan_touches_iff hprepare path).mp htouch
    simp [hskip planned hplanned, SyncPlanAction.transfers, SyncPlanAction.deletes] at haction
  rw [lookup_after_no_transfer hprepare fun planned hplanned => by
    simp [hskip planned hplanned, SyncPlanAction.transfers], htouches, hdestination]
  rfl

theorem lookup_of_extra
    (hprepare : prepareSyncRunPlan platform sync
      (buildSyncPlan source destination mode SyncPreset.converge.policy compareMode) = .ok runPlan)
    (hsource : (SyncObjectMap.ofListing source)[path]? = none) (hmode : mode ≠ .copy) :
    (SyncObjectMap.ofListing (destinationAfterRun runPlan stamp destination))[path]? = none := by
  have hdelete : ∀ planned, planItem (.ofListing source) (.ofListing destination) mode
      SyncPreset.converge.policy compareMode path = some planned → planned.action = .delete := by
    intro planned hplanned
    obtain ⟨-, -, -, hdecision⟩ := planItem_eq_some hplanned
    rw [hsource] at hdecision
    cases hd : (SyncObjectMap.ofListing destination)[path]? with
    | none => simp [hd, planDecision] at hdecision
    | some existing =>
        have hextras : SyncPreset.converge.policy.deleteExtras = true := rfl
        rw [hd] at hdecision
        cases mode <;> simp_all [planDecision, missingOnSourceAction]
  rw [lookup_after_no_transfer hprepare fun planned hplanned => by
    simp [hdelete planned hplanned, SyncPlanAction.transfers]]
  by_cases htouch : runPlan.touches path = true
  · simp [htouch]
  · -- an untouched path without a source has no destination either
    cases hd : (SyncObjectMap.ofListing destination)[path]? with
    | none => simp
    | some existing =>
        refine absurd ((runPlan_touches_iff hprepare path).mpr ?_) htouch
        have hdecision : planDecision mode SyncPreset.converge.policy compareMode none
            (some existing) = some (.delete, .missingOnSource) :=
          planDecision_delete_iff.mpr ⟨rfl, rfl, hmode, rfl, rfl⟩
        refine ⟨⟨.delete, .missingOnSource, path, none, some existing⟩, ?_, .inr rfl⟩
        simp [planItem, hsource, hd, hdecision]

end Converge

end Resync

/-- Planning again after a run under the Converge policy skips everything exactly
when every object the run had to write compares equal to what the destination
assigned to it. -/
theorem resync_skips_iff (platform : Platform) (sync : SyncState) (mode : SyncMode)
    (compareMode : SyncCompareMode) (source destination : List SyncObject)
    (stamp : Str → WriteStamp) (runPlan : SyncRunPlan)
    (hprepare : prepareSyncRunPlan platform sync
      (buildSyncPlan source destination mode SyncPreset.converge.policy compareMode) =
        .ok runPlan) :
    (∀ item ∈ (buildSyncPlan source (destinationAfterRun runPlan stamp destination) mode
        SyncPreset.converge.policy compareMode).items, item.action = .skip) ↔
      ∀ path object, (SyncObjectMap.ofListing source)[path]? = some object →
        NeedsWrite mode compareMode object (SyncObjectMap.ofListing destination)[path]? →
        StampMatches mode compareMode sync.destinationKind object (stamp path) := by
  constructor
  · intro hskips path object hsource hneeds
    obtain ⟨planned, item, hplannedSource, rfl, hitem, hafter⟩ :=
      lookup_of_needsWrite stamp hprepare hsource hneeds
    rw [← upToDate_written_iff hitem hplannedSource]
    -- the second plan's item at this path compares against the written object
    cases hsecond : planItem (.ofListing source)
        (.ofListing (destinationAfterRun runPlan stamp destination)) mode
        SyncPreset.converge.policy compareMode planned.relativePath with
    | none =>
        simp only [planItem, hsource, hafter, planDecision, Option.map_eq_none_iff] at hsecond
        split at hsecond <;> simp at hsecond
    | some second =>
        obtain ⟨hpath, -, -, hdecision⟩ := planItem_eq_some hsecond
        have haction := hskips second (mem_buildSyncPlan_items.mpr (hpath ▸ hsecond))
        rw [hsource, hafter] at hdecision
        have hboth := planDecision_both rfl rfl hdecision
        rw [haction] at hboth
        by_contra hne
        simp [Bool.eq_false_iff.mpr hne] at hboth
  · intro hstamps item hitem
    obtain ⟨hs, hd, hdecision⟩ := buildSyncPlan_item_spec hitem
    cases hsource : (SyncObjectMap.ofListing source)[item.relativePath]? with
    | none =>
        by_cases hmode : mode = .copy
        · subst hmode
          rw [hs, hsource] at hdecision
          cases hafter : item.destination <;>
            simp [hafter, planDecision, missingOnSourceAction] at hdecision
          exact hdecision.1.symm
        · rw [hs, hd, hsource, lookup_of_extra hprepare hsource hmode] at hdecision
          simp [planDecision] at hdecision
    | some object =>
        by_cases hneeds : NeedsWrite mode compareMode object
            (SyncObjectMap.ofListing destination)[item.relativePath]?
        · obtain ⟨planned, written, hplannedSource, hpath, hwritten, hafter⟩ :=
            lookup_of_needsWrite stamp hprepare hsource hneeds
          have hmatch := hstamps _ object hsource hneeds
          rw [← hpath, ← upToDate_written_iff hwritten hplannedSource] at hmatch
          rw [hs, hd, hsource, hafter] at hdecision
          simpa [hmatch] using planDecision_both rfl rfl hdecision
        · obtain ⟨existing, hexisting, hsame⟩ : ∃ existing,
              (SyncObjectMap.ofListing destination)[item.relativePath]? = some existing ∧
                upToDate mode compareMode object existing = true := by
            simpa [NeedsWrite] using hneeds
          rw [hs, hd, hsource, lookup_of_upToDate hprepare hsource hexisting hsame] at hdecision
          simpa [hsame] using planDecision_both rfl rfl hdecision

/-! ## One upload under the default comparison -/

def sampleObject (modified etag : String) : SyncObject :=
  { relativePath := "a".toList
    size := 1
    modified := some modified.toList
    etag := some etag.toList
    isDirMarker := false }

def sampleRunPlan : SyncRunPlan :=
  { transfers :=
      [{ relativePath := "a".toList
         action := .create
         source := .s3 CURRENT_CONNECTION_ID "photos".toList "a".toList
         destination := .s3 CURRENT_CONNECTION_ID "backup".toList "a".toList
         strategy := .serverSideCopy
         bytes := 1 }]
    deletes := []
    totalTransferBytes := 1
    totalDeleteBytes := 0
    hasClientRelay := false }

theorem prepare_sampleRunPlan (platform : Platform) (compareMode : SyncCompareMode) :
    prepareSyncRunPlan platform (.betweenBuckets "photos".toList "backup".toList)
      (buildSyncPlan [sampleObject "2026-01-01T00:00:00Z" "e1"] [] .sync
        SyncPreset.converge.policy compareMode) = .ok sampleRunPlan := by
  cases platform <;> cases compareMode <;> decide

theorem resync_skips_iff_checksum :
    (∀ item ∈ (buildSyncPlan [sampleObject "2026-01-01T00:00:00Z" "e1"]
        (destinationAfterRun sampleRunPlan (fun _ => ⟨"2026-01-02T00:00:00Z".toList, "e1".toList⟩)
          []) .sync SyncPreset.converge.policy .checksumIfAvailable).items,
        item.action = .skip) ↔
      ∀ (path : Str) object, (SyncObjectMap.ofListing
          [sampleObject "2026-01-01T00:00:00Z" "e1"])[path]? = some object →
        NeedsWrite .sync .checksumIfAvailable object (SyncObjectMap.ofListing [])[path]? →
        StampMatches .sync .checksumIfAvailable .s3 object
          ⟨"2026-01-02T00:00:00Z".toList, "e1".toList⟩ :=
  resync_skips_iff .unix (.betweenBuckets "photos".toList "backup".toList) .sync
    .checksumIfAvailable [sampleObject "2026-01-01T00:00:00Z" "e1"] [] _ sampleRunPlan
    (prepare_sampleRunPlan .unix .checksumIfAvailable)

/-- The default comparison transfers the same object again: the destination's write
time is not the source's. -/
theorem resync_updates_written_object :
    ¬ ∀ (platform : Platform) (sync : SyncState) (mode : SyncMode)
      (compareMode : SyncCompareMode) (source destination : List SyncObject)
      (stamp : Str → WriteStamp) (runPlan : SyncRunPlan), compareMode ≠ .alwaysOverwrite →
      prepareSyncRunPlan platform sync
        (buildSyncPlan source destination mode SyncPreset.converge.policy compareMode) =
          .ok runPlan →
      ∀ item ∈ (buildSyncPlan source (destinationAfterRun runPlan stamp destination) mode
        SyncPreset.converge.policy compareMode).items, item.action = .skip := by
  intro h
  have hskips := h .unix (.betweenBuckets "photos".toList "backup".toList) .sync .sizeAndModTime
    [sampleObject "2026-01-01T00:00:00Z" "e1"] []
    (fun _ => ⟨"2026-01-02T00:00:00Z".toList, "e1".toList⟩) sampleRunPlan (by decide)
    (prepare_sampleRunPlan .unix .sizeAndModTime)
  exact absurd hskips (by decide)

end AbixioUi
