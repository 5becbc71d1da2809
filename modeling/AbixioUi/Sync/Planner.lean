import AbixioUi.Foundation.KeyedMap
import AbixioUi.Types
import Mathlib.Data.Char
import Mathlib.Data.List.Lex

/-! # The planner

Two listings are merged by relative path and every path gets one action. The
merge keeps the last object of a path, so a listing with distinct paths loses
nothing; what the plan holds for a path is then a function of the two objects
found there.
-/

namespace AbixioUi

open Foundation

def updateOrConflict (overwriteChanged : Bool) (reason : SyncPlanReason) :
    SyncPlanAction × SyncPlanReason :=
  if overwriteChanged then (.update, reason) else (.conflict, reason)

/-- Both times are known and the source's text is not after the destination's. -/
def notNewer (source destination : Option Str) : Bool :=
  match source, destination with
  | some sourceModified, some destinationModified => decide (sourceModified ≤ destinationModified)
  | _, _ => false

def sameChecksum (source destination : SyncObject) : Bool :=
  source.etag.isSome && decide (source.etag = destination.etag) &&
    decide (source.size = destination.size)

def compareSyncObjects (source destination : SyncObject) (mode : SyncCompareMode)
    (policy : SyncPolicy) : SyncPlanAction × SyncPlanReason :=
  match mode with
  | .alwaysOverwrite => updateOrConflict policy.overwriteChanged .sourceNewer
  | .sizeOnly =>
      if source.size = destination.size then (.skip, .identical)
      else updateOrConflict policy.overwriteChanged .sizeMismatch
  | .sizeAndModTime =>
      if source.size ≠ destination.size then updateOrConflict policy.overwriteChanged .sizeMismatch
      else if source.modified = destination.modified then (.skip, .identical)
      else updateOrConflict policy.overwriteChanged .sourceNewer
  | .updateIfSourceNewer =>
      if source.size ≠ destination.size then updateOrConflict policy.overwriteChanged .sizeMismatch
      else if source.modified = destination.modified then (.skip, .identical)
      else if notNewer source.modified destination.modified then
        match policy.destinationNewerPolicy with
        | .sourceWins => updateOrConflict policy.overwriteChanged .destinationNewer
        | .skip => (.skip, .destinationNewer)
        | .conflict => (.conflict, .destinationNewer)
      else updateOrConflict policy.overwriteChanged .sourceNewer
  | .checksumIfAvailable =>
      if sameChecksum source destination then (.skip, .identical)
      else if source.size ≠ destination.size then
        updateOrConflict policy.overwriteChanged .sizeMismatch
      else updateOrConflict policy.overwriteChanged .checksumMismatch

def compareCopyObjects (source destination : SyncObject) (mode : SyncCompareMode) :
    SyncPlanAction × SyncPlanReason :=
  match mode with
  | .alwaysOverwrite => (.update, .sourceNewer)
  | .sizeOnly =>
      if source.size = destination.size then (.skip, .identical) else (.update, .sizeMismatch)
  | .sizeAndModTime =>
      if source.size ≠ destination.size then (.update, .sizeMismatch)
      else if source.modified = destination.modified then (.skip, .identical)
      else (.update, .sourceNewer)
  | .updateIfSourceNewer =>
      if source.size ≠ destination.size then (.update, .sizeMismatch)
      else if source.modified = destination.modified then (.skip, .identical)
      else if notNewer source.modified destination.modified then (.skip, .destinationNewer)
      else (.update, .sourceNewer)
  | .checksumIfAvailable =>
      if sameChecksum source destination then (.skip, .identical)
      else if source.size ≠ destination.size then (.update, .sizeMismatch)
      else (.update, .checksumMismatch)

def missingOnSourceAction (mode : SyncMode) (policy : SyncPolicy) :
    SyncPlanAction × SyncPlanReason :=
  match mode with
  | .copy => (.skip, .missingOnSource)
  | .sync | .diff =>
      if policy.deleteExtras then (.delete, .missingOnSource) else (.skip, .missingOnSource)

/-- The decision for one path; `none` is the path that is on neither side. -/
def planDecision (mode : SyncMode) (policy : SyncPolicy) (compareMode : SyncCompareMode)
    (source destination : Option SyncObject) : Option (SyncPlanAction × SyncPlanReason) :=
  match source, destination with
  | some source, some destination =>
      if mode = .copy then some (compareCopyObjects source destination compareMode)
      else some (compareSyncObjects source destination compareMode policy)
  | some _, none => some (.create, .missingOnDestination)
  | none, some _ => some (missingOnSourceAction mode policy)
  | none, none => none

/-- The summary after one more item. -/
def SyncPlanSummary.count (summary : SyncPlanSummary) (item : SyncPlanItem) : SyncPlanSummary :=
  match item.action with
  | .create =>
      { summary with
        creates := summary.creates + 1
        bytesToCreate := addU64 summary.bytesToCreate (objectSize item.source) }
  | .update =>
      { summary with
        updates := summary.updates + 1
        bytesToUpdate := addU64 summary.bytesToUpdate (objectSize item.source) }
  | .delete =>
      { summary with
        deletes := summary.deletes + 1
        bytesToDelete := addU64 summary.bytesToDelete (objectSize item.destination) }
  | .skip => { summary with skips := summary.skips + 1 }
  | .conflict => { summary with conflicts := summary.conflicts + 1 }

abbrev SyncObjectMap := Std.TreeMap Str SyncObject

def SyncObjectMap.ofListing (listing : List SyncObject) : SyncObjectMap :=
  insertAll SyncObject.relativePath listing

def planItem (sourceMap destinationMap : SyncObjectMap) (mode : SyncMode) (policy : SyncPolicy)
    (compareMode : SyncCompareMode) (path : Str) : Option SyncPlanItem :=
  (planDecision mode policy compareMode sourceMap[path]? destinationMap[path]?).map
    fun (action, reason) =>
      { action := action
        reason := reason
        relativePath := path
        source := sourceMap[path]?
        destination := destinationMap[path]? }

/-- One iteration of the planning loop. -/
def planStep (sourceMap destinationMap : SyncObjectMap) (mode : SyncMode) (policy : SyncPolicy)
    (compareMode : SyncCompareMode) (plan : SyncPlan) (path : Str) : SyncPlan :=
  match planItem sourceMap destinationMap mode policy compareMode path with
  | some item => { items := plan.items ++ [item], summary := plan.summary.count item }
  | none => plan

def allPaths (sourceMap destinationMap : SyncObjectMap) : List Str :=
  sortDedup (sourceMap.keys ++ destinationMap.keys)

def buildSyncPlan (source destination : List SyncObject) (mode : SyncMode) (policy : SyncPolicy)
    (compareMode : SyncCompareMode) : SyncPlan :=
  let sourceMap := SyncObjectMap.ofListing source
  let destinationMap := SyncObjectMap.ofListing destination
  (allPaths sourceMap destinationMap).foldl
    (planStep sourceMap destinationMap mode policy compareMode)
    { items := []
      summary :=
        { sourceScanned := sourceMap.size
          destinationScanned := destinationMap.size } }

/-! ## What a plan holds -/

section Plan

variable {source destination : List SyncObject} {mode : SyncMode} {policy : SyncPolicy}
variable {compareMode : SyncCompareMode}

theorem planStep_foldl_items (sourceMap destinationMap : SyncObjectMap) (mode : SyncMode)
    (policy : SyncPolicy) (compareMode : SyncCompareMode) (paths : List Str) (plan : SyncPlan) :
    (paths.foldl (planStep sourceMap destinationMap mode policy compareMode) plan).items =
      plan.items ++
        paths.filterMap (planItem sourceMap destinationMap mode policy compareMode) := by
  induction paths generalizing plan with
  | nil => simp
  | cons path paths ih =>
      rw [List.foldl_cons, ih]
      cases h : planItem sourceMap destinationMap mode policy compareMode path with
      | none => simp [planStep, h]
      | some item => simp [planStep, h]

theorem buildSyncPlan_items (source destination : List SyncObject) (mode : SyncMode)
    (policy : SyncPolicy) (compareMode : SyncCompareMode) :
    (buildSyncPlan source destination mode policy compareMode).items =
      (allPaths (.ofListing source) (.ofListing destination)).filterMap
        (planItem (.ofListing source) (.ofListing destination) mode policy compareMode) := by
  simp [buildSyncPlan, planStep_foldl_items]

theorem planItem_eq_some {sourceMap destinationMap : SyncObjectMap} {path : Str}
    {item : SyncPlanItem}
    (h : planItem sourceMap destinationMap mode policy compareMode path = some item) :
    item.relativePath = path ∧ item.source = sourceMap[path]? ∧
      item.destination = destinationMap[path]? ∧
      planDecision mode policy compareMode sourceMap[path]? destinationMap[path]? =
        some (item.action, item.reason) := by
  obtain ⟨decision, hdecision, rfl⟩ := Option.map_eq_some_iff.mp h
  exact ⟨rfl, rfl, rfl, hdecision⟩

/-- The item of a path that some listing holds. -/
theorem mem_buildSyncPlan_items {item : SyncPlanItem} :
    item ∈ (buildSyncPlan source destination mode policy compareMode).items ↔
      planItem (.ofListing source) (.ofListing destination) mode policy compareMode
        item.relativePath = some item := by
  rw [buildSyncPlan_items, List.mem_filterMap]
  constructor
  · rintro ⟨path, _, h⟩
    rwa [(planItem_eq_some h).1]
  · intro h
    refine ⟨item.relativePath, ?_, h⟩
    obtain ⟨-, -, -, hdecision⟩ := planItem_eq_some h
    rw [allPaths, mem_sortDedup, List.mem_append]
    -- a path on neither side has no decision
    by_cases hs : (SyncObjectMap.ofListing source)[item.relativePath]? = none
    · by_cases hd : (SyncObjectMap.ofListing destination)[item.relativePath]? = none
      · simp [planDecision, hs, hd] at hdecision
      · exact .inr (Std.TreeMap.mem_keys.mpr (Std.TreeMap.mem_iff_isSome_getElem?.mpr
          (Option.isSome_iff_ne_none.mpr hd)))
    · exact .inl (Std.TreeMap.mem_keys.mpr (Std.TreeMap.mem_iff_isSome_getElem?.mpr
        (Option.isSome_iff_ne_none.mpr hs)))

/-- Every listed path has its item. -/
theorem exists_buildSyncPlan_item {path : Str}
    (h : ((SyncObjectMap.ofListing source)[path]?).isSome ∨
      ((SyncObjectMap.ofListing destination)[path]?).isSome) :
    ∃ item ∈ (buildSyncPlan source destination mode policy compareMode).items,
      item.relativePath = path := by
  have hdecision : (planDecision mode policy compareMode (SyncObjectMap.ofListing source)[path]?
      (SyncObjectMap.ofListing destination)[path]?).isSome := by
    cases hs : (SyncObjectMap.ofListing source)[path]? <;>
      cases hd : (SyncObjectMap.ofListing destination)[path]? <;> simp_all [planDecision]
    split <;> simp
  obtain ⟨decision, hdecision⟩ := Option.isSome_iff_exists.mp hdecision
  refine ⟨⟨decision.1, decision.2, path, (SyncObjectMap.ofListing source)[path]?,
    (SyncObjectMap.ofListing destination)[path]?⟩, mem_buildSyncPlan_items.mpr ?_, rfl⟩
  rw [planItem, hdecision]
  rfl

/-- What an item records and why it was planned. -/
theorem buildSyncPlan_item_spec {item : SyncPlanItem}
    (h : item ∈ (buildSyncPlan source destination mode policy compareMode).items) :
    item.source = (SyncObjectMap.ofListing source)[item.relativePath]? ∧
      item.destination = (SyncObjectMap.ofListing destination)[item.relativePath]? ∧
      planDecision mode policy compareMode item.source item.destination =
        some (item.action, item.reason) := by
  obtain ⟨-, hs, hd, hdecision⟩ := planItem_eq_some (mem_buildSyncPlan_items.mp h)
  exact ⟨hs, hd, by rwa [hs, hd]⟩

theorem nodup_buildSyncPlan_paths (source destination : List SyncObject) (mode : SyncMode)
    (policy : SyncPolicy) (compareMode : SyncCompareMode) :
    ((buildSyncPlan source destination mode policy compareMode).items.map
      SyncPlanItem.relativePath).Nodup := by
  have hpaths : (allPaths (.ofListing source) (.ofListing destination)).Nodup := nodup_sortDedup _
  rw [buildSyncPlan_items, List.map_filterMap]
  refine hpaths.filterMap ?_
  intro path path' found hfound hfound'
  obtain ⟨item, hitem, rfl⟩ := Option.map_eq_some_iff.mp hfound
  obtain ⟨item', hitem', hsame⟩ := Option.map_eq_some_iff.mp hfound'
  rw [← (planItem_eq_some hitem).1, ← (planItem_eq_some hitem').1, hsame]

theorem ofListing_eq_none_iff {listing : List SyncObject} {path : Str} :
    (SyncObjectMap.ofListing listing)[path]? = none ↔
      ∀ object ∈ listing, object.relativePath ≠ path :=
  insertAll_eq_none_iff

theorem mem_of_ofListing_eq_some {listing : List SyncObject} {path : Str} {object : SyncObject}
    (h : (SyncObjectMap.ofListing listing)[path]? = some object) :
    object ∈ listing ∧ object.relativePath = path :=
  mem_of_insertAll_eq_some h

/-! ## Which decisions delete or write -/

theorem updateOrConflict_ne_delete (overwriteChanged : Bool) (reason : SyncPlanReason) :
    (updateOrConflict overwriteChanged reason).1 ≠ .delete ∧
      (updateOrConflict overwriteChanged reason).1 ≠ .create := by
  cases overwriteChanged <;> simp [updateOrConflict]

theorem compareSyncObjects_ne_delete (source destination : SyncObject) (mode : SyncCompareMode)
    (policy : SyncPolicy) :
    (compareSyncObjects source destination mode policy).1 ≠ .delete ∧
      (compareSyncObjects source destination mode policy).1 ≠ .create := by
  unfold compareSyncObjects
  cases mode with
  | alwaysOverwrite => exact updateOrConflict_ne_delete _ _
  | sizeOnly =>
      dsimp only
      split
      · simp
      · exact updateOrConflict_ne_delete _ _
  | sizeAndModTime =>
      dsimp only
      split_ifs
      · exact updateOrConflict_ne_delete _ _
      · simp
      · exact updateOrConflict_ne_delete _ _
  | updateIfSourceNewer =>
      dsimp only
      split_ifs
      · exact updateOrConflict_ne_delete _ _
      · simp
      · cases policy.destinationNewerPolicy
        · exact updateOrConflict_ne_delete _ _
        · simp
        · simp
      · exact updateOrConflict_ne_delete _ _
  | checksumIfAvailable =>
      dsimp only
      split_ifs
      · simp
      · exact updateOrConflict_ne_delete _ _
      · exact updateOrConflict_ne_delete _ _

theorem compareCopyObjects_update_or_skip (source destination : SyncObject)
    (mode : SyncCompareMode) :
    (compareCopyObjects source destination mode).1 = .update ∨
      (compareCopyObjects source destination mode).1 = .skip := by
  unfold compareCopyObjects
  cases mode <;> dsimp only <;> (try split_ifs) <;> simp

/-- When a comparison finds the destination up to date. -/
def upToDate (mode : SyncMode) (compareMode : SyncCompareMode)
    (source destination : SyncObject) : Bool :=
  match compareMode with
  | .alwaysOverwrite => false
  | .sizeOnly => decide (source.size = destination.size)
  | .sizeAndModTime =>
      decide (source.size = destination.size) && decide (source.modified = destination.modified)
  | .updateIfSourceNewer =>
      decide (source.size = destination.size) &&
        (decide (source.modified = destination.modified) ||
          decide (mode = .copy) && notNewer source.modified destination.modified)
  | .checksumIfAvailable => sameChecksum source destination

/-- With changed objects overwritten and the source winning, an object that is not
up to date is updated, and one that is was found identical. -/
theorem compareSyncObjects_sourceWins (hover : policy.overwriteChanged = true)
    (hnewer : policy.destinationNewerPolicy = .sourceWins) (hmode : mode ≠ .copy)
    (source destination : SyncObject) (compareMode : SyncCompareMode) :
    (compareSyncObjects source destination compareMode policy).1 =
        (if upToDate mode compareMode source destination then .skip else .update) ∧
      (upToDate mode compareMode source destination = true →
        (compareSyncObjects source destination compareMode policy).2 = .identical) := by
  unfold compareSyncObjects upToDate
  by_cases hsize : source.size = destination.size <;>
    by_cases hmodified : source.modified = destination.modified <;>
    by_cases hnotNewer : notNewer source.modified destination.modified = true <;>
    by_cases hsum : sameChecksum source destination = true <;>
    cases compareMode <;>
    simp [updateOrConflict, hover, hnewer, hmode, hsize, hmodified, hnotNewer, hsum]

theorem compareCopyObjects_action (source destination : SyncObject)
    (compareMode : SyncCompareMode) :
    (compareCopyObjects source destination compareMode).1 =
      if upToDate .copy compareMode source destination then .skip else .update := by
  unfold compareCopyObjects upToDate
  by_cases hsize : source.size = destination.size <;>
    by_cases hmodified : source.modified = destination.modified <;>
    by_cases hnotNewer : notNewer source.modified destination.modified = true <;>
    by_cases hsum : sameChecksum source destination = true <;>
    cases compareMode <;>
    simp [hsize, hmodified, hnotNewer, hsum]

/-- The action of a path on both sides, when the source wins. -/
theorem planDecision_both (hover : policy.overwriteChanged = true)
    (hnewer : policy.destinationNewerPolicy = .sourceWins) {source destination : SyncObject}
    {action : SyncPlanAction} {reason : SyncPlanReason}
    (h : planDecision mode policy compareMode (some source) (some destination) =
      some (action, reason)) :
    action = if upToDate mode compareMode source destination then .skip else .update := by
  by_cases hmode : mode = .copy
  · subst hmode
    have haction := compareCopyObjects_action source destination compareMode
    simp only [planDecision, if_true, Option.some.injEq] at h
    rwa [h] at haction
  · have haction := (compareSyncObjects_sourceWins hover hnewer hmode source destination
      compareMode).1
    simp only [planDecision, hmode, if_false, Option.some.injEq] at h
    rwa [h] at haction

/-- Outside copy mode, when the source wins, a path on both sides is written or was
found identical. -/
theorem planDecision_writes_or_identical (hover : policy.overwriteChanged = true)
    (hnewer : policy.destinationNewerPolicy = .sourceWins) (hmode : mode ≠ .copy)
    {source destination : SyncObject} {action : SyncPlanAction} {reason : SyncPlanReason}
    (h : planDecision mode policy compareMode (some source) (some destination) =
      some (action, reason)) :
    action.transfers = true ∨ action = .skip ∧ reason = .identical := by
  obtain ⟨haction, hreason⟩ :=
    compareSyncObjects_sourceWins hover hnewer hmode source destination compareMode
  have hpair : compareSyncObjects source destination compareMode policy = (action, reason) := by
    simpa [planDecision, hmode] using h
  rw [hpair] at haction hreason
  by_cases hsame : upToDate mode compareMode source destination = true
  · exact .inr ⟨by simpa [hsame] using haction, hreason hsame⟩
  · have hupdate : action = .update := by simpa [hsame] using haction
    exact .inl (by simp [hupdate, SyncPlanAction.transfers])

/-- In copy mode a path on both sides is written or skipped. -/
theorem planDecision_copy_writes_or_skips {source destination : SyncObject}
    {action : SyncPlanAction} {reason : SyncPlanReason}
    (h : planDecision .copy policy compareMode (some source) (some destination) =
      some (action, reason)) :
    action.transfers = true ∨ action = .skip := by
  have hpair : compareCopyObjects source destination compareMode = (action, reason) := by
    simpa [planDecision] using h
  have haction := compareCopyObjects_update_or_skip source destination compareMode
  rw [hpair] at haction
  rcases haction with hupdate | hskip
  · exact .inl (by simp_all [SyncPlanAction.transfers])
  · exact .inr hskip

/-- Deletions are planned for destination-only paths alone, outside copy mode and
with extras to be deleted. -/
theorem planDecision_delete_iff {s d : Option SyncObject} {reason : SyncPlanReason} :
    planDecision mode policy compareMode s d = some (.delete, reason) ↔
      s = none ∧ d.isSome ∧ mode ≠ .copy ∧ policy.deleteExtras = true ∧
        reason = .missingOnSource := by
  cases s with
  | none =>
      cases d with
      | none => simp [planDecision]
      | some destination =>
          cases mode <;> cases hx : policy.deleteExtras <;>
            simp [planDecision, missingOnSourceAction, hx, eq_comm]
  | some source =>
      cases d with
      | none => simp [planDecision]
      | some destination =>
          simp only [planDecision, reduceCtorEq, false_and, iff_false]
          split
          · intro h
            have := compareCopyObjects_update_or_skip source destination compareMode
            simp [Option.some.inj h] at this
          · intro h
            have := (compareSyncObjects_ne_delete source destination compareMode policy).1
            simp [Option.some.inj h] at this

/-- Transfers are planned for paths that the source holds. -/
theorem isSome_of_planDecision_transfers {s d : Option SyncObject} {action : SyncPlanAction}
    {reason : SyncPlanReason}
    (h : planDecision mode policy compareMode s d = some (action, reason))
    (haction : action.transfers = true) : s.isSome := by
  cases s with
  | some source => rfl
  | none =>
      cases d with
      | none => simp [planDecision] at h
      | some destination =>
          have hno : (missingOnSourceAction mode policy).1.transfers = false := by
            cases mode <;> cases hx : policy.deleteExtras <;>
              simp [missingOnSourceAction, hx, SyncPlanAction.transfers]
          have hmissing : missingOnSourceAction mode policy = (action, reason) := by
            simpa [planDecision] using h
          simp [hmissing, haction] at hno

/-- The plan deletes a path exactly when only the destination listing holds it. -/
theorem buildSyncPlan_deletes_iff {path : Str} :
    (∃ item ∈ (buildSyncPlan source destination mode policy compareMode).items,
        item.action = .delete ∧ item.relativePath = path) ↔
      mode ≠ .copy ∧ policy.deleteExtras = true ∧
        (∃ object ∈ destination, object.relativePath = path) ∧
        ∀ object ∈ source, object.relativePath ≠ path := by
  constructor
  · rintro ⟨item, hitem, haction, rfl⟩
    obtain ⟨hs, hd, hdecision⟩ := buildSyncPlan_item_spec hitem
    rw [haction, planDecision_delete_iff] at hdecision
    obtain ⟨hnone, hsome, hmode, hextras, -⟩ := hdecision
    refine ⟨hmode, hextras, ?_, ?_⟩
    · rw [hd] at hsome
      exact insertAll_isSome_iff.mp hsome
    · exact ofListing_eq_none_iff.mp (hs ▸ hnone)
  · rintro ⟨hmode, hextras, hdestination, hsource⟩
    have hs : (SyncObjectMap.ofListing source)[path]? = none := ofListing_eq_none_iff.mpr hsource
    have hd : ((SyncObjectMap.ofListing destination)[path]?).isSome :=
      insertAll_isSome_iff.mpr hdestination
    have hdecision : planDecision mode policy compareMode
        (SyncObjectMap.ofListing source)[path]? (SyncObjectMap.ofListing destination)[path]? =
          some (.delete, .missingOnSource) :=
      planDecision_delete_iff.mpr ⟨hs, hd, hmode, hextras, rfl⟩
    refine ⟨⟨.delete, .missingOnSource, path, (SyncObjectMap.ofListing source)[path]?,
      (SyncObjectMap.ofListing destination)[path]?⟩, ?_, rfl, rfl⟩
    rw [mem_buildSyncPlan_items, planItem, hdecision]
    rfl

end Plan

end AbixioUi
