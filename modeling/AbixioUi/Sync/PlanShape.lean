import Mathlib.Algebra.Order.BigOperators.Group.List
import Mathlib.Algebra.Order.Group.Nat
import AbixioUi.Sync.Extras
import AbixioUi.Sync.RunPlan

/-! # The shape of a plan

A plan of listings with distinct paths is the ordered union of the two, its summary
counts its items, and the totals of its run plan are those of the summary.
-/

namespace AbixioUi

open Foundation

/-! ## Counting -/

/-- The sizes of the planned objects with one action, as the summary adds them up. -/
def plannedSizes (action : SyncPlanAction) (items : List SyncPlanItem) : List Nat :=
  (items.filter fun item => decide (item.action = action)).map fun item =>
    if action = .delete then objectSize item.destination else objectSize item.source

/-- The summary counts every item under its action, and the bytes of those that move. -/
structure SyncPlanSummary.Counts (before : SyncPlanSummary) (items : List SyncPlanItem)
    (after : SyncPlanSummary) : Prop where
  creates_eq : after.creates = before.creates + items.countP (·.action = .create)
  updates_eq : after.updates = before.updates + items.countP (·.action = .update)
  deletes_eq : after.deletes = before.deletes + items.countP (·.action = .delete)
  skips_eq : after.skips = before.skips + items.countP (·.action = .skip)
  conflicts_eq : after.conflicts = before.conflicts + items.countP (·.action = .conflict)
  bytesToCreate_eq : after.bytesToCreate =
    (plannedSizes .create items).foldl addU64 before.bytesToCreate
  bytesToUpdate_eq : after.bytesToUpdate =
    (plannedSizes .update items).foldl addU64 before.bytesToUpdate
  bytesToDelete_eq : after.bytesToDelete =
    (plannedSizes .delete items).foldl addU64 before.bytesToDelete

theorem plannedSizes_append (action : SyncPlanAction) (as bs : List SyncPlanItem) :
    plannedSizes action (as ++ bs) = plannedSizes action as ++ plannedSizes action bs := by
  simp [plannedSizes]

theorem SyncPlanSummary.Counts.trans {s t u : SyncPlanSummary} {as bs : List SyncPlanItem}
    (h : s.Counts as t) (h' : t.Counts bs u) : s.Counts (as ++ bs) u where
  creates_eq := by rw [h'.creates_eq, h.creates_eq, List.countP_append, Nat.add_assoc]
  updates_eq := by rw [h'.updates_eq, h.updates_eq, List.countP_append, Nat.add_assoc]
  deletes_eq := by rw [h'.deletes_eq, h.deletes_eq, List.countP_append, Nat.add_assoc]
  skips_eq := by rw [h'.skips_eq, h.skips_eq, List.countP_append, Nat.add_assoc]
  conflicts_eq := by rw [h'.conflicts_eq, h.conflicts_eq, List.countP_append, Nat.add_assoc]
  bytesToCreate_eq := by
    rw [h'.bytesToCreate_eq, h.bytesToCreate_eq, plannedSizes_append, List.foldl_append]
  bytesToUpdate_eq := by
    rw [h'.bytesToUpdate_eq, h.bytesToUpdate_eq, plannedSizes_append, List.foldl_append]
  bytesToDelete_eq := by
    rw [h'.bytesToDelete_eq, h.bytesToDelete_eq, plannedSizes_append, List.foldl_append]

/-- One item is counted under its action alone. -/
theorem count_counts (summary : SyncPlanSummary) (item : SyncPlanItem) :
    summary.Counts [item] (summary.count item) := by
  unfold SyncPlanSummary.count
  cases haction : item.action <;>
    refine ⟨?_, ?_, ?_, ?_, ?_, ?_, ?_, ?_⟩ <;> simp [plannedSizes, haction]

theorem foldl_count (items : List SyncPlanItem) (summary : SyncPlanSummary) :
    summary.Counts items (items.foldl SyncPlanSummary.count summary) := by
  induction items generalizing summary with
  | nil => exact ⟨rfl, rfl, rfl, rfl, rfl, rfl, rfl, rfl⟩
  | cons item items ih => exact (count_counts summary item).trans (ih (summary.count item))

theorem planStep_foldl_summary (sourceMap destinationMap : SyncObjectMap) (mode : SyncMode)
    (policy : SyncPolicy) (compareMode : SyncCompareMode) (paths : List Str) (plan : SyncPlan) :
    (paths.foldl (planStep sourceMap destinationMap mode policy compareMode) plan).summary =
      (paths.filterMap (planItem sourceMap destinationMap mode policy compareMode)).foldl
        SyncPlanSummary.count plan.summary := by
  induction paths generalizing plan with
  | nil => rfl
  | cons path paths ih =>
      rw [List.foldl_cons, ih]
      cases h : planItem sourceMap destinationMap mode policy compareMode path with
      | none => simp [planStep, h]
      | some item => simp [planStep, h]

/-- The summary of a plan counts the items of the plan. -/
theorem buildSyncPlan_counts (source destination : List SyncObject) (mode : SyncMode)
    (policy : SyncPolicy) (compareMode : SyncCompareMode) :
    SyncPlanSummary.Counts
      { sourceScanned := (SyncObjectMap.ofListing source).size
        destinationScanned := (SyncObjectMap.ofListing destination).size }
      (buildSyncPlan source destination mode policy compareMode).items
      (buildSyncPlan source destination mode policy compareMode).summary := by
  rw [buildSyncPlan_items]
  simp only [buildSyncPlan, planStep_foldl_summary]
  exact foldl_count _ _

/-- Every item has exactly one action. -/
theorem countP_actions (items : List SyncPlanItem) :
    items.countP (·.action = .create) + items.countP (·.action = .update) +
        items.countP (·.action = .delete) + items.countP (·.action = .skip) +
        items.countP (·.action = .conflict) = items.length := by
  induction items with
  | nil => rfl
  | cons item items ih =>
      have hone : (if item.action = .create then 1 else 0) +
          (if item.action = .update then 1 else 0) + (if item.action = .delete then 1 else 0) +
          (if item.action = .skip then 1 else 0) +
          (if item.action = .conflict then 1 else 0) = 1 := by
        cases item.action <;> rfl
      simp only [List.countP_cons, List.length_cons, decide_eq_true_eq]
      omega

/-! ## Order -/

section Order

variable {source destination source' destination' : List SyncObject} {mode : SyncMode}
  {policy : SyncPolicy} {compareMode : SyncCompareMode}

theorem allPaths_isSome {path : Str}
    (h : path ∈ allPaths (.ofListing source) (.ofListing destination)) :
    ∃ item, planItem (.ofListing source) (.ofListing destination) mode policy compareMode path =
      some item := by
  rw [allPaths, mem_sortDedup, List.mem_append, Std.TreeMap.mem_keys, Std.TreeMap.mem_keys,
    Std.TreeMap.mem_iff_isSome_getElem?, Std.TreeMap.mem_iff_isSome_getElem?] at h
  obtain ⟨item, hitem, rfl⟩ := @exists_buildSyncPlan_item _ _ mode policy compareMode _ h
  exact ⟨item, mem_buildSyncPlan_items.mp hitem⟩

/-- The items are in path order. -/
theorem buildSyncPlan_sorted :
    ((buildSyncPlan source destination mode policy compareMode).items.map
      (·.relativePath)).Pairwise (· < ·) := by
  have hpaths : (buildSyncPlan source destination mode policy compareMode).items.map
      (·.relativePath) = allPaths (.ofListing source) (.ofListing destination) := by
    rw [buildSyncPlan_items, List.map_filterMap]
    refine (List.filterMap_congr fun path hpath => ?_).trans List.filterMap_some
    obtain ⟨item, hitem⟩ := @allPaths_isSome _ _ mode policy compareMode _ hpath
    rw [hitem, Option.map_some, (planItem_eq_some hitem).1]
  rw [hpaths]
  exact sorted_sortDedup _

/-- Lookups decide the keys of a map, in order. -/
theorem keys_eq_of_lookups {map map' : SyncObjectMap} (h : ∀ path : Str, map[path]? = map'[path]?) :
    map.keys = map'.keys := by
  have hperm : map.keys.Perm map'.keys := by
    rw [List.perm_ext_iff_of_nodup Std.TreeMap.nodup_keys Std.TreeMap.nodup_keys]
    intro path
    rw [Std.TreeMap.mem_keys, Std.TreeMap.mem_keys, Std.TreeMap.mem_iff_isSome_getElem?,
      Std.TreeMap.mem_iff_isSome_getElem?, h]
  refine hperm.eq_of_pairwise ?_ Std.TreeMap.ordered_keys Std.TreeMap.ordered_keys
  intro a b _ _ hab hba
  rw [@Std.OrientedCmp.eq_swap _ compare, hab] at hba
  cases hba

/-- A plan depends on its listings through the objects found for each path. -/
theorem buildSyncPlan_congr
    (hsource : ∀ path : Str,
      (SyncObjectMap.ofListing source')[path]? = (SyncObjectMap.ofListing source)[path]?)
    (hdestination : ∀ path : Str, (SyncObjectMap.ofListing destination')[path]? =
      (SyncObjectMap.ofListing destination)[path]?) :
    buildSyncPlan source' destination' mode policy compareMode =
      buildSyncPlan source destination mode policy compareMode := by
  have hkeysS := keys_eq_of_lookups hsource
  have hkeysD := keys_eq_of_lookups hdestination
  have hstep : planStep (.ofListing source') (.ofListing destination') mode policy compareMode =
      planStep (.ofListing source) (.ofListing destination) mode policy compareMode := by
    funext plan path
    simp only [planStep, planItem, hsource, hdestination]
  simp only [buildSyncPlan, allPaths, hkeysS, hkeysD, hstep, ← Std.TreeMap.length_keys]

theorem ofListing_perm {listing listing' : List SyncObject}
    (hnodup : (listing.map (·.relativePath)).Nodup) (hperm : listing'.Perm listing) (path : Str) :
    (SyncObjectMap.ofListing listing')[path]? = (SyncObjectMap.ofListing listing)[path]? := by
  have hnodup' : (listing'.map (·.relativePath)).Nodup :=
    (hperm.map _).nodup_iff.mpr hnodup
  refine Option.ext fun object => ?_
  show (insertAll _ listing')[path]? = some object ↔ (insertAll _ listing)[path]? = some object
  rw [insertAll_eq_some_iff hnodup', insertAll_eq_some_iff hnodup, hperm.mem_iff]

end Order

/-! ## Updates -/

theorem updateOrConflict_update {overwriteChanged : Bool} {reason : SyncPlanReason}
    (h : (updateOrConflict overwriteChanged reason).1 = .update) : overwriteChanged = true := by
  cases overwriteChanged with
  | true => rfl
  | false => cases h

/-- Without the policy to overwrite, no comparison of a sync updates. -/
theorem compareSyncObjects_update {source destination : SyncObject} {mode : SyncCompareMode}
    {policy : SyncPolicy} (h : (compareSyncObjects source destination mode policy).1 = .update) :
    policy.overwriteChanged = true := by
  unfold compareSyncObjects at h
  cases mode with
  | alwaysOverwrite => exact updateOrConflict_update h
  | sizeOnly | sizeAndModTime | checksumIfAvailable =>
      dsimp only at h
      split_ifs at h <;> exact updateOrConflict_update h
  | updateIfSourceNewer =>
      dsimp only at h
      split_ifs at h
      · exact updateOrConflict_update h
      · cases hnewer : policy.destinationNewerPolicy with
        | sourceWins =>
            rw [hnewer] at h
            exact updateOrConflict_update h
        | skip | conflict =>
            rw [hnewer] at h
            cases h
      · exact updateOrConflict_update h

/-- Updates are planned for paths on both sides, when changed objects are overwritten. -/
theorem planDecision_update {mode : SyncMode} {policy : SyncPolicy}
    {compareMode : SyncCompareMode} {s d : Option SyncObject} {reason : SyncPlanReason}
    (h : planDecision mode policy compareMode s d = some (.update, reason)) :
    s.isSome ∧ d.isSome ∧ (policy.overwriteChanged = true ∨ mode = .copy) := by
  cases s with
  | none =>
      cases d with
      | none => cases h
      | some destination =>
          cases mode <;> cases hx : policy.deleteExtras <;>
            simp [planDecision, missingOnSourceAction, hx] at h
  | some source =>
      cases d with
      | none => simp [planDecision] at h
      | some destination =>
          refine ⟨rfl, rfl, ?_⟩
          by_cases hcopy : mode = .copy
          · exact .inr hcopy
          · left
            have hpair : compareSyncObjects source destination compareMode policy =
                (.update, reason) := by
              simpa [planDecision, hcopy] using h
            exact compareSyncObjects_update (congrArg Prod.fst hpair)

/-! ## Totals -/

section Totals

variable {source destination : List SyncObject} {mode : SyncMode} {policy : SyncPolicy}
  {compareMode : SyncCompareMode}

/-- The objects that distinct items take from one side are among those listed there. -/
theorem sum_sizes_le {items : List SyncPlanItem} {listing : List SyncObject}
    {side : SyncPlanItem → Option SyncObject}
    (hpaths : (items.map (·.relativePath)).Nodup)
    (hside : ∀ item ∈ items, ∀ object, side item = some object →
      object ∈ listing ∧ object.relativePath = item.relativePath) :
    (items.map fun item => objectSize (side item)).sum ≤ (listing.map (·.size)).sum := by
  have hsizes : (items.map fun item => objectSize (side item)).sum =
      ((items.filterMap side).map (·.size)).sum := by
    induction items with
    | nil => rfl
    | cons item items ih =>
        have hrest := ih (List.nodup_cons.mp hpaths).2
          fun item hitem => hside item (List.mem_cons_of_mem _ hitem)
        cases hitem : side item with
        | none => simpa [hitem, objectSize] using hrest
        | some object => simpa [hitem, objectSize] using hrest
  have hsubpaths : ((items.filterMap side).map (·.relativePath)).Sublist
      (items.map (·.relativePath)) := by
    clear hsizes hpaths
    induction items with
    | nil => exact .slnil
    | cons item items ih =>
        have hrest := ih fun item hitem => hside item (List.mem_cons_of_mem _ hitem)
        cases hitem : side item with
        | none =>
            rw [List.filterMap_cons_none hitem]
            exact hrest.cons _
        | some object =>
            have hpath := (hside item List.mem_cons_self object hitem).2
            rw [List.filterMap_cons_some hitem, List.map_cons, List.map_cons, hpath]
            exact hrest.cons_cons _
  have hnodup : (items.filterMap side).Nodup := (hpaths.sublist hsubpaths).of_map
  have hsub : items.filterMap side ⊆ listing := by
    intro object hobject
    obtain ⟨item, hitem, hfound⟩ := List.mem_filterMap.mp hobject
    exact (hside item hitem object hfound).1
  obtain ⟨objects, hperm, hsublist⟩ := List.subperm_of_subset hnodup hsub
  rw [hsizes, ← (hperm.map (·.size)).sum_nat]
  exact (hsublist.map (·.size)).sum_le_sum fun _ _ => Nat.zero_le _

/-- Creates and updates together are the transfers. -/
theorem sum_transfers (items : List SyncPlanItem) :
    ((items.filter (·.action.transfers)).map fun item => objectSize item.source).sum =
      (plannedSizes .create items).sum + (plannedSizes .update items).sum := by
  induction items with
  | nil => rfl
  | cons item items ih =>
      cases haction : item.action <;>
        simp_all [plannedSizes, SyncPlanAction.transfers] <;> omega

theorem countP_transfers (items : List SyncPlanItem) :
    (items.filter (·.action.transfers)).length =
      items.countP (·.action = .create) + items.countP (·.action = .update) := by
  induction items with
  | nil => rfl
  | cons item items ih =>
      cases haction : item.action <;>
        simp_all [SyncPlanAction.transfers] <;> omega

theorem filter_deletes (items : List SyncPlanItem) :
    items.filter (·.action.deletes) = items.filter fun item => decide (item.action = .delete) := by
  congr 1
  funext item
  cases item.action <;> rfl

end Totals

/-! ## The whole plan -/

/-- A plan is the union of its listings, in strict path order, and its summary counts it. -/
structure SyncPlan.WellFormed (source destination : List SyncObject) (mode : SyncMode)
    (policy : SyncPolicy) (plan : SyncPlan) : Prop where
  sorted : (plan.items.map (·.relativePath)).Pairwise (· < ·)
  paths : ∀ path, path ∈ plan.items.map (·.relativePath) ↔
    path ∈ source.map (·.relativePath) ∨ path ∈ destination.map (·.relativePath)
  source_iff : ∀ item ∈ plan.items, ∀ object,
    item.source = some object ↔ object ∈ source ∧ object.relativePath = item.relativePath
  destination_iff : ∀ item ∈ plan.items, ∀ object,
    item.destination = some object ↔
      object ∈ destination ∧ object.relativePath = item.relativePath
  deletes : ∀ item ∈ plan.items, item.action = .delete →
    item.source = none ∧ item.destination.isSome ∧ policy.deleteExtras = true ∧ mode ≠ .copy
  updates : ∀ item ∈ plan.items, item.action = .update →
    item.source.isSome ∧ item.destination.isSome ∧
      (policy.overwriteChanged = true ∨ mode = .copy)
  creates_eq : plan.summary.creates = plan.items.countP (·.action = .create)
  updates_eq : plan.summary.updates = plan.items.countP (·.action = .update)
  deletes_eq : plan.summary.deletes = plan.items.countP (·.action = .delete)
  skips_eq : plan.summary.skips = plan.items.countP (·.action = .skip)
  conflicts_eq : plan.summary.conflicts = plan.items.countP (·.action = .conflict)
  total_eq : plan.summary.creates + plan.summary.updates + plan.summary.deletes +
    plan.summary.skips + plan.summary.conflicts = plan.items.length

/-- The run plan moves what the summary announces. -/
structure SyncPlanSummary.Announces (summary : SyncPlanSummary) (runPlan : SyncRunPlan) :
    Prop where
  transfers_eq : runPlan.transfers.length = summary.creates + summary.updates
  deletes_eq : runPlan.deletes.length = summary.deletes
  transferBytes_eq : runPlan.totalTransferBytes = summary.bytesToCreate + summary.bytesToUpdate
  deleteBytes_eq : runPlan.totalDeleteBytes = summary.bytesToDelete

section Whole

variable {source destination : List SyncObject} {mode : SyncMode} {policy : SyncPolicy}
  {compareMode : SyncCompareMode}

theorem ofListing_eq_some_iff {listing : List SyncObject} {path : Str} {object : SyncObject}
    (hnodup : (listing.map (·.relativePath)).Nodup) :
    (SyncObjectMap.ofListing listing)[path]? = some object ↔
      object ∈ listing ∧ object.relativePath = path :=
  insertAll_eq_some_iff hnodup

theorem buildSyncPlan_wellFormed (hsource : (source.map (·.relativePath)).Nodup)
    (hdestination : (destination.map (·.relativePath)).Nodup) :
    (buildSyncPlan source destination mode policy compareMode).WellFormed source destination
      mode policy := by
  have hcounts := buildSyncPlan_counts source destination mode policy compareMode
  have hactions := countP_actions (buildSyncPlan source destination mode policy compareMode).items
  refine ⟨buildSyncPlan_sorted, ?_, ?_, ?_, ?_, ?_, ?_, ?_, ?_, ?_, ?_, ?_⟩
  · intro path
    have hlisted : ∀ listing : List SyncObject, path ∈ listing.map (·.relativePath) ↔
        ((SyncObjectMap.ofListing listing)[path]?).isSome := by
      intro listing
      rw [List.mem_map]
      exact insertAll_isSome_iff.symm
    rw [hlisted, hlisted, List.mem_map]
    constructor
    · rintro ⟨item, hitem, rfl⟩
      obtain ⟨hs, hd, hdecision⟩ := buildSyncPlan_item_spec hitem
      rw [← hs, ← hd]
      by_contra hneither
      obtain ⟨hnoSource, hnoDestination⟩ := not_or.mp hneither
      rw [Option.not_isSome_iff_eq_none] at hnoSource hnoDestination
      rw [hnoSource, hnoDestination] at hdecision
      cases hdecision
    · exact exists_buildSyncPlan_item
  · intro item hitem object
    rw [(buildSyncPlan_item_spec hitem).1, ofListing_eq_some_iff hsource]
  · intro item hitem object
    rw [(buildSyncPlan_item_spec hitem).2.1, ofListing_eq_some_iff hdestination]
  · intro item hitem haction
    have hdecision := (buildSyncPlan_item_spec hitem).2.2
    rw [haction, planDecision_delete_iff] at hdecision
    obtain ⟨hnone, hsome, hmode, hextras, -⟩ := hdecision
    exact ⟨hnone, hsome, hextras, hmode⟩
  · intro item hitem haction
    have hdecision := (buildSyncPlan_item_spec hitem).2.2
    rw [haction] at hdecision
    exact planDecision_update hdecision
  · rw [hcounts.creates_eq, Nat.zero_add]
  · rw [hcounts.updates_eq, Nat.zero_add]
  · rw [hcounts.deletes_eq, Nat.zero_add]
  · rw [hcounts.skips_eq, Nat.zero_add]
  · rw [hcounts.conflicts_eq, Nat.zero_add]
  · rw [hcounts.creates_eq, hcounts.updates_eq, hcounts.deletes_eq, hcounts.skips_eq,
      hcounts.conflicts_eq]
    simp only [Nat.zero_add]
    exact hactions

/-- The bytes that a plan takes from the source are at most those listed there. -/
theorem sum_planned_le (keep : SyncPlanItem → Bool) :
    (((buildSyncPlan source destination mode policy compareMode).items.filter keep).map
      fun item => objectSize item.source).sum ≤ (source.map (·.size)).sum := by
  have hpaths : (((buildSyncPlan source destination mode policy compareMode).items.filter
      keep).map (·.relativePath)).Nodup :=
    (nodup_buildSyncPlan_paths source destination mode policy compareMode).sublist
      (List.filter_sublist.map _)
  refine sum_sizes_le hpaths fun item hitem object hobject => ?_
  rw [(buildSyncPlan_item_spec (List.mem_filter.mp hitem).1).1] at hobject
  exact mem_of_ofListing_eq_some hobject

theorem prepareSyncRunPlan_announced (hsourceBytes : (source.map (·.size)).sum < 2 ^ 64)
    {platform : Platform} {sync : SyncState} {runPlan : SyncRunPlan}
    (hprepared : prepareSyncRunPlan platform sync
      (buildSyncPlan source destination mode policy compareMode) = .ok runPlan) :
    (buildSyncPlan source destination mode policy compareMode).summary.Announces runPlan := by
  have hcounts := buildSyncPlan_counts source destination mode policy compareMode
  obtain ⟨htransfers, hdeletes, htransferBytes, hdeleteBytes⟩ := prepareSyncRunPlan_ok hprepared
  have hmovedBytes : runPlan.transfers.map SyncRunItem.bytes = _ :=
    forall₂_map_eq htransfers fun _ _ hitem => (transferRunItem_ok hitem).2.2.1
  have hdeletedBytes : runPlan.deletes.map SyncRunItem.bytes = _ :=
    forall₂_map_eq hdeletes fun _ _ hitem => (deleteRunItem_ok hitem).2.2.1
  have hmovedLe := @sum_planned_le source destination mode policy compareMode
    (·.action.transfers)
  have hsplit := sum_transfers
    (buildSyncPlan source destination mode policy compareMode).items
  have hdeleted : (plannedSizes .delete
      (buildSyncPlan source destination mode policy compareMode).items) =
      ((buildSyncPlan source destination mode policy compareMode).items.filter
        (·.action.deletes)).map fun item => objectSize item.destination := by
    rw [filter_deletes]
    simp [plannedSizes]
  have hcreate := @foldl_addU64_of_lt (plannedSizes .create
    (buildSyncPlan source destination mode policy compareMode).items) 0 (by omega)
  have hupdate := @foldl_addU64_of_lt (plannedSizes .update
    (buildSyncPlan source destination mode policy compareMode).items) 0 (by omega)
  refine ⟨?_, ?_, ?_, ?_⟩
  · rw [← htransfers.length_eq, countP_transfers, hcounts.creates_eq, hcounts.updates_eq,
      Nat.zero_add, Nat.zero_add]
  · rw [← hdeletes.length_eq, hcounts.deletes_eq, Nat.zero_add, filter_deletes,
      List.countP_eq_length_filter]
  · rw [htransferBytes, hmovedBytes, sumU64_of_lt (by omega), hcounts.bytesToCreate_eq,
      hcounts.bytesToUpdate_eq, hcreate, hupdate, Nat.zero_add, Nat.zero_add, hsplit]
  · rw [hdeleteBytes, hdeletedBytes, hcounts.bytesToDelete_eq, hdeleted]
    rfl

end Whole

/-- Plan well-formedness: the plan of listings with distinct paths is well formed and does
not depend on their order, and its run plans move exactly what its summary announces. -/
theorem buildSyncPlan_shape {source destination : List SyncObject} (mode : SyncMode)
    (policy : SyncPolicy) (compareMode : SyncCompareMode)
    (hsource : (source.map (·.relativePath)).Nodup)
    (hdestination : (destination.map (·.relativePath)).Nodup)
    (hsourceBytes : (source.map (·.size)).sum < 2 ^ 64) :
    let plan := buildSyncPlan source destination mode policy compareMode
    plan.WellFormed source destination mode policy ∧
      (∀ source' destination', source'.Perm source → destination'.Perm destination →
        buildSyncPlan source' destination' mode policy compareMode = plan) ∧
      ∀ platform sync runPlan, prepareSyncRunPlan platform sync plan = .ok runPlan →
        plan.summary.Announces runPlan := by
  intro plan
  refine ⟨buildSyncPlan_wellFormed hsource hdestination, ?_, ?_⟩
  · intro source' destination' hpermS hpermD
    exact buildSyncPlan_congr (ofListing_perm hsource hpermS) (ofListing_perm hdestination hpermD)
  · intro platform sync runPlan hprepared
    exact prepareSyncRunPlan_announced hsourceBytes hprepared

theorem buildSyncPlan_shape_two_sides :
    let plan := buildSyncPlan [sizedObject "b" 5, sizedObject "a" 3] [sizedObject "c" 7] .sync
      SyncPreset.converge.policy .sizeAndModTime
    plan.WellFormed [sizedObject "b" 5, sizedObject "a" 3] [sizedObject "c" 7] .sync
        SyncPreset.converge.policy ∧
      (∀ source' destination', source'.Perm [sizedObject "b" 5, sizedObject "a" 3] →
        destination'.Perm [sizedObject "c" 7] →
          buildSyncPlan source' destination' .sync SyncPreset.converge.policy .sizeAndModTime =
            plan) ∧
      ∀ platform sync runPlan, prepareSyncRunPlan platform sync plan = .ok runPlan →
        plan.summary.Announces runPlan :=
  buildSyncPlan_shape .sync SyncPreset.converge.policy .sizeAndModTime (by decide) (by decide)
    (by decide)

end AbixioUi
