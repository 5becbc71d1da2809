import AbixioUi.Sync.Enumerate
import AbixioUi.Sync.PlanShape

/-! # Filtering before planning

Both listings are filtered object by object, each side at its own clock readings, and the
planner sees what is left. Where the filters decide by the path alone this is the plan of
the whole listings with the same paths taken out; where they do not, no choice of paths
explains the plan.
-/

namespace AbixioUi

open Foundation

section

variable {source destination : List SyncObject} {mode : SyncMode} {policy : SyncPolicy}
  {compareMode : SyncCompareMode}

/-! ## The planner works path by path -/

theorem ofListing_filter (passes : Str → Bool) (listing : List SyncObject) (path : Str) :
    (SyncObjectMap.ofListing (listing.filter fun object => passes object.relativePath))[path]? =
      if passes path then (SyncObjectMap.ofListing listing)[path]? else none :=
  insertAll_filter_getElem? passes listing path

theorem planItem_filter (passes : Str → Bool) (path : Str) :
    planItem (.ofListing (source.filter fun object => passes object.relativePath))
        (.ofListing (destination.filter fun object => passes object.relativePath)) mode policy
        compareMode path =
      if passes path then
        planItem (.ofListing source) (.ofListing destination) mode policy compareMode path
      else none := by
  simp only [planItem, ofListing_filter]
  split
  next => rfl
  next => rfl

/-- Paths that are taken out of both listings are taken out of the plan, and the other items
stay as they are, in order. -/
theorem buildSyncPlan_filter (passes : Str → Bool) :
    (buildSyncPlan (source.filter fun object => passes object.relativePath)
        (destination.filter fun object => passes object.relativePath) mode policy
        compareMode).items =
      (buildSyncPlan source destination mode policy compareMode).items.filter
        fun item => passes item.relativePath := by
  have hmem : ∀ item : SyncPlanItem,
      item ∈ (buildSyncPlan (source.filter fun object => passes object.relativePath)
          (destination.filter fun object => passes object.relativePath) mode policy
          compareMode).items ↔
        item ∈ (buildSyncPlan source destination mode policy compareMode).items.filter
          fun item => passes item.relativePath := by
    intro item
    rw [List.mem_filter, mem_buildSyncPlan_items, mem_buildSyncPlan_items, planItem_filter]
    split
    next hpasses => rw [hpasses, and_iff_left rfl]
    next hpasses => simp [hpasses]
  have hsorted : ∀ source destination : List SyncObject,
      (buildSyncPlan source destination mode policy compareMode).items.Pairwise
        fun item item' => item.relativePath < item'.relativePath :=
    fun _ _ => List.pairwise_map.mp buildSyncPlan_sorted
  have hnodup : ∀ source destination : List SyncObject,
      (buildSyncPlan source destination mode policy compareMode).items.Nodup :=
    fun _ _ => (nodup_buildSyncPlan_paths _ _ _ _ _).of_map
  have hperm := (List.perm_ext_iff_of_nodup (hnodup _ _) ((hnodup _ _).filter _)).mpr hmem
  refine hperm.eq_of_pairwise ?_ (hsorted _ _) ((hsorted _ _).filter _)
  intro item item' _ _ hlt hgt
  exact absurd (hlt.trans hgt) (lt_irrefl _)

end

/-! ## Filters that decide by the path -/

section

variable {time : TimeCodec} {filters : SyncFilterSet}

/-- Objects of one path pass together, whatever their sizes and times and whatever the clock
shows. -/
def SyncFilterSet.ByPath (time : TimeCodec) (filters : SyncFilterSet) : Prop :=
  ∀ object object' now now' keep keep', object.relativePath = object'.relativePath →
    applySyncFilters time now object filters = some keep →
    applySyncFilters time now' object' filters = some keep' → keep = keep'

/-- With the size and the age filters left blank, the patterns decide. -/
theorem byPath_of_patterns (hnewer : filters.newerThanText = [])
    (holder : filters.olderThanText = []) (hmin : filters.minSizeText = [])
    (hmax : filters.maxSizeText = []) : filters.ByPath time := by
  intro object object' now now' keep keep' hpath hkeep hkeep'
  have hsize : parseSizeFilter [] = none := rfl
  have hage : ∀ now, parseAgeFilter time now [] = some none := fun _ => rfl
  simp only [applySyncFilters, sizeFilterPasses, ageFilterPasses, hnewer, holder, hmin, hmax, hsize,
    hage, hpath] at hkeep hkeep'
  exact Option.some.inj (hkeep.symm.trans hkeep')

/-- A listing filtered by its paths, whatever the clock shows. -/
theorem filterListing_byPath {passes : Str → Bool}
    (hpasses : ∀ object now keep, applySyncFilters time now object filters = some keep →
      keep = passes object.relativePath)
    {clock : Nat → ClockReadings} {listing kept : List SyncObject}
    (h : filterListing time filters clock listing = some kept) :
    kept = listing.filter fun object => passes object.relativePath := by
  induction listing generalizing clock kept with
  | nil => exact (Option.some.inj h).symm
  | cons object listing ih =>
      unfold filterListing at h
      cases hverdict : applySyncFilters time (clock 0) object filters with
      | none =>
          rw [hverdict] at h
          cases h
      | some keep =>
          rw [hverdict] at h
          obtain ⟨rest, hrest, rfl⟩ := Option.map_eq_some_iff.mp h
          rw [List.filter_cons, ← hpasses object (clock 0) keep hverdict, ih hrest]

/-- What a listing of one object leaves. -/
theorem filterListing_singleton {now : ClockReadings} {object : SyncObject} {keep : Bool}
    (h : applySyncFilters time now object filters = some keep) :
    filterListing time filters (fun _ => now) [object] =
      some (if keep then [object] else []) := by
  simp [filterListing, h]

/-- An object that only the source has is planned, if it passes. -/
theorem exists_item_of_source (object : SyncObject) (mode : SyncMode) (policy : SyncPolicy)
    (compareMode : SyncCompareMode) :
    ∃ item ∈ (buildSyncPlan [object] [] mode policy compareMode).items,
      item.relativePath = object.relativePath := by
  apply exists_buildSyncPlan_item
  left
  exact insertAll_isSome_iff.mpr ⟨object, List.mem_singleton_self object, rfl⟩

/-- Filters decide by the path alone exactly if one choice of paths does what they do. -/
theorem byPath_iff : filters.ByPath time ↔ ∃ passes : Str → Bool,
    ∀ object now keep, applySyncFilters time now object filters = some keep →
      keep = passes object.relativePath := by
  constructor
  · intro hbyPath
    classical
    -- a path passes if some object of that path passes at some time
    refine ⟨fun path => decide (∃ object now, object.relativePath = path ∧
      applySyncFilters time now object filters = some true), fun object now keep hkeep => ?_⟩
    cases keep with
    | true => exact (decide_eq_true ⟨object, now, rfl, hkeep⟩).symm
    | false =>
        apply (decide_eq_false ?_).symm
        rintro ⟨object', now', hpath, hkeep'⟩
        exact absurd (hbyPath object object' now now' false true hpath.symm hkeep hkeep')
          Bool.false_ne_true
  · rintro ⟨passes, hverdict⟩ object object' now now' keep keep' hpath hkeep hkeep'
    rw [hverdict object now keep hkeep, hverdict object' now' keep' hkeep', hpath]

/-- Filtering both listings before planning takes some paths out of the plan, and changes
nothing else, exactly if the filters decide by the path alone; patterns alone do. What the
planner gets of a bucket or a directory is its listing filtered so. -/
theorem filtered_plan_iff (time : TimeCodec) (filters : SyncFilterSet) (mode : SyncMode)
    (policy : SyncPolicy) (compareMode : SyncCompareMode) :
    ((∃ passes : Str → Bool, ∀ sourceClock destinationClock source destination sourceKept
        destinationKept,
      filterListing time filters sourceClock source = some sourceKept →
      filterListing time filters destinationClock destination = some destinationKept →
      (buildSyncPlan sourceKept destinationKept mode policy compareMode).items =
        (buildSyncPlan source destination mode policy compareMode).items.filter
          fun item => passes item.relativePath) ↔
      filters.ByPath time) ∧
    (filters.newerThanText = [] → filters.olderThanText = [] → filters.minSizeText = [] →
      filters.maxSizeText = [] → filters.ByPath time) ∧
    (filters.ByPath time → ∃ passes : Str → Bool, ∀ source destination sourceKept
        destinationKept,
      Enumerated time filters source sourceKept →
      Enumerated time filters destination destinationKept →
      (buildSyncPlan sourceKept destinationKept mode policy compareMode).items =
        (buildSyncPlan source destination mode policy compareMode).items.filter
          fun item => passes item.relativePath) := by
  have hchosen : ∀ passes : Str → Bool,
      (∀ object now keep, applySyncFilters time now object filters = some keep →
        keep = passes object.relativePath) →
      ∀ sourceClock destinationClock source destination sourceKept destinationKept,
        filterListing time filters sourceClock source = some sourceKept →
        filterListing time filters destinationClock destination = some destinationKept →
        (buildSyncPlan sourceKept destinationKept mode policy compareMode).items =
          (buildSyncPlan source destination mode policy compareMode).items.filter
            fun item => passes item.relativePath := by
    intro passes hpasses _ _ source destination _ _ hsource hdestination
    rw [filterListing_byPath hpasses hsource, filterListing_byPath hpasses hdestination,
      buildSyncPlan_filter]
  refine ⟨⟨?_, ?_⟩, byPath_of_patterns, ?_⟩
  · rintro ⟨passes, hplans⟩
    refine byPath_iff.mpr ⟨passes, fun object now keep hkeep => ?_⟩
    have hplan := hplans (fun _ => now) (fun _ => now) [object] [] _ []
      (filterListing_singleton hkeep) rfl
    obtain ⟨item, hitem, hpath⟩ := exists_item_of_source object mode policy compareMode
    cases keep with
    | true =>
        rw [if_pos rfl] at hplan
        rw [hplan, List.mem_filter, hpath] at hitem
        exact hitem.2.symm
    | false =>
        have hnone : ∀ item' ∈ (buildSyncPlan [object] [] mode policy compareMode).items,
            ¬ passes item'.relativePath = true := List.filter_eq_nil_iff.mp hplan.symm
        have hrejects := hnone item hitem
        rw [hpath, Bool.not_eq_true] at hrejects
        exact hrejects.symm
  · intro hbyPath
    obtain ⟨passes, hpasses⟩ := byPath_iff.mp hbyPath
    exact ⟨passes, hchosen passes hpasses⟩
  · intro hbyPath
    obtain ⟨passes, hpasses⟩ := byPath_iff.mp hbyPath
    refine ⟨passes, fun source destination _ _ hsource hdestination => ?_⟩
    obtain ⟨sourceClock, hsource⟩ := hsource.filterListing
    obtain ⟨destinationClock, hdestination⟩ := hdestination.filterListing
    exact hchosen passes hpasses sourceClock destinationClock source destination _ _ hsource
      hdestination

end

end AbixioUi
