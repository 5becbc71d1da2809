import AbixioUi.Sync.Enumerate
import AbixioUi.Sync.Planner

/-! # What filtered planning deletes

Each side is filtered on its own, by its own sizes, times and clock readings, and
the planner sees the survivors alone. A path whose source copy was filtered out is
then indistinguishable from a path the source never had.
-/

namespace AbixioUi

open Foundation

/-- No planned delete names a path of the unfiltered source listing. -/
def DeletesOnlyExtras (source : List SyncObject) (plan : SyncPlan) : Prop :=
  ∀ item ∈ plan.items, item.action = .delete →
    ∀ object ∈ source, object.relativePath ≠ item.relativePath

instance (source : List SyncObject) (plan : SyncPlan) :
    Decidable (DeletesOnlyExtras source plan) :=
  inferInstanceAs (Decidable (∀ item ∈ plan.items, item.action = .delete →
    ∀ object ∈ source, object.relativePath ≠ item.relativePath))

/-- Whenever a path is on both sides and a destination object passes there, a
source object passes there too. -/
def FiltersAgree (time : TimeCodec) (filters : SyncFilterSet)
    (sourceClock destinationClock : Nat → ClockReadings)
    (source destination : List SyncObject) : Prop :=
  ∀ destinationObject, PassesAt time filters destinationClock destination destinationObject →
    ∀ sourceObject ∈ source, sourceObject.relativePath = destinationObject.relativePath →
      ∃ kept, PassesAt time filters sourceClock source kept ∧
        kept.relativePath = destinationObject.relativePath

/-- A plan of two kept listings deletes true extras alone exactly when no path
falls on different sides of the filters, or deletions are off altogether. -/
theorem deletesOnlyExtras_iff (time : TimeCodec) (filters : SyncFilterSet)
    (sourceClock destinationClock : Nat → ClockReadings)
    (source destination sourceKept destinationKept : List SyncObject) (mode : SyncMode)
    (policy : SyncPolicy) (compareMode : SyncCompareMode)
    (hsource : filterListing time filters sourceClock source = some sourceKept)
    (hdestination : filterListing time filters destinationClock destination =
      some destinationKept) :
    DeletesOnlyExtras source
        (buildSyncPlan sourceKept destinationKept mode policy compareMode) ↔
      mode = .copy ∨ policy.deleteExtras = false ∨
        FiltersAgree time filters sourceClock destinationClock source destination := by
  constructor
  · intro hextras
    by_cases hmode : mode = .copy
    · exact .inl hmode
    by_cases hpolicy : policy.deleteExtras = false
    · exact .inr (.inl hpolicy)
    refine .inr (.inr ?_)
    intro destinationObject hpasses sourceObject hmem hpath
    -- otherwise the path is planned for deletion although the source has it
    by_contra hnone
    have hkept : destinationObject ∈ destinationKept :=
      (mem_filterListing hdestination _).mpr hpasses
    have hmissing : ∀ object ∈ sourceKept,
        object.relativePath ≠ destinationObject.relativePath := by
      intro object hobject hsame
      exact hnone ⟨object, (mem_filterListing hsource _).mp hobject, hsame⟩
    have hplanned : ∃ item ∈
        (buildSyncPlan sourceKept destinationKept mode policy compareMode).items,
          item.action = .delete ∧ item.relativePath = destinationObject.relativePath :=
      buildSyncPlan_deletes_iff.mpr
        ⟨hmode, by simpa using hpolicy, ⟨destinationObject, hkept, rfl⟩, hmissing⟩
    obtain ⟨item, hitem, haction, hitemPath⟩ := hplanned
    exact hextras item hitem haction sourceObject hmem (hpath.trans hitemPath.symm)
  · intro hcond item hitem haction sourceObject hmem hpath
    obtain ⟨hmode, hpolicy, ⟨destinationObject, hkept, hdpath⟩, hmissing⟩ :=
      buildSyncPlan_deletes_iff.mp ⟨item, hitem, haction, rfl⟩
    rcases hcond with hcopy | hoff | hagree
    · exact hmode hcopy
    · simp [hoff] at hpolicy
    · obtain ⟨kept, hpasses, hkeptPath⟩ := hagree destinationObject
        ((mem_filterListing hdestination _).mp hkept) sourceObject hmem (hpath.trans hdpath.symm)
      exact hmissing kept ((mem_filterListing hsource _).mpr hpasses) (hkeptPath.trans hdpath)

/-! ## One object on both sides of a size filter -/

def minSizeFilter : SyncFilterSet :=
  { includePatternsText := []
    excludePatternsText := []
    newerThanText := []
    olderThanText := []
    minSizeText := "10".toList
    maxSizeText := [] }

def sizedObject (path : String) (size : Nat) : SyncObject :=
  { relativePath := path.toList
    size := size
    modified := none
    etag := none
    isDirMarker := false }

theorem deletesOnlyExtras_iff_large_source :
    DeletesOnlyExtras [sizedObject "a" 12]
        (buildSyncPlan [sizedObject "a" 12] [sizedObject "a" 20, sizedObject "b" 30] .sync
          SyncPreset.converge.policy .sizeAndModTime) ↔
      SyncMode.sync = .copy ∨ SyncPreset.converge.policy.deleteExtras = false ∨
        FiltersAgree noTimes minSizeFilter (fun _ => ⟨0, 0⟩) (fun _ => ⟨0, 0⟩)
          [sizedObject "a" 12] [sizedObject "a" 20, sizedObject "b" 30] :=
  deletesOnlyExtras_iff noTimes minSizeFilter (fun _ => ⟨0, 0⟩) (fun _ => ⟨0, 0⟩)
    [sizedObject "a" 12] [sizedObject "a" 20, sizedObject "b" 30] _ _ .sync _ _
    (by decide) (by decide)

/-- A source copy below the minimum size leaves the larger destination copy to be
deleted as missing on the source. -/
theorem small_source_copy_deletes_destination :
    ¬ ∀ (time : TimeCodec) (filters : SyncFilterSet) (sourceNow destinationNow : Int)
      (source destination sourceKept destinationKept : List SyncObject) (mode : SyncMode)
      (policy : SyncPolicy) (compareMode : SyncCompareMode), sourceNow ≤ destinationNow →
      filterListing time filters (fun _ => ⟨sourceNow, sourceNow⟩) source = some sourceKept →
      filterListing time filters (fun _ => ⟨destinationNow, destinationNow⟩) destination =
        some destinationKept →
      DeletesOnlyExtras source
        (buildSyncPlan sourceKept destinationKept mode policy compareMode) := by
  intro h
  have hplan := h noTimes minSizeFilter 0 0 [sizedObject "a" 5] [sizedObject "a" 20] []
    [sizedObject "a" 20] .sync SyncPreset.converge.policy .sizeAndModTime (by decide)
    (by decide) (by decide)
  exact absurd hplan (by decide)

end AbixioUi
