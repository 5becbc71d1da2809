import AbixioUi.Foundation.Timestamps
import AbixioUi.Sync.Planner

/-! # The two compare functions

Copying compares with a function of its own. It decides as synchronizing does under
one fixed policy, so the three modes have one planner. Both functions order modified
times by their texts, and a text does not always order as its instant does.
-/

namespace AbixioUi

open Foundation

/-! ## One planner for three modes -/

section

variable {source destination : List SyncObject} {compareMode : SyncCompareMode}

/-- The policy that copying stands for, with any phase for the deletes it never plans. -/
def copyPolicy (deletePhase : SyncDeletePhase) : SyncPolicy where
  overwriteChanged := true
  deleteExtras := false
  destinationNewerPolicy := .skip
  deletePhase := deletePhase

theorem compareCopyObjects_eq (source destination : SyncObject) (compareMode : SyncCompareMode)
    (deletePhase : SyncDeletePhase) :
    compareCopyObjects source destination compareMode =
      compareSyncObjects source destination compareMode (copyPolicy deletePhase) := by
  cases compareMode <;> rfl

theorem planDecision_copy (policy : SyncPolicy) (deletePhase : SyncDeletePhase)
    (compareMode : SyncCompareMode) (s d : Option SyncObject) :
    planDecision .copy policy compareMode s d =
      planDecision .sync (copyPolicy deletePhase) compareMode s d := by
  cases s with
  | none => cases d <;> rfl
  | some source =>
      cases d with
      | none => rfl
      | some destination =>
          show some (compareCopyObjects source destination compareMode) =
            some (compareSyncObjects source destination compareMode (copyPolicy deletePhase))
          rw [compareCopyObjects_eq source destination compareMode deletePhase]

theorem planDecision_diff (policy : SyncPolicy) (compareMode : SyncCompareMode)
    (s d : Option SyncObject) :
    planDecision .diff policy compareMode s d = planDecision .sync policy compareMode s d := by
  cases s <;> cases d <;> rfl

/-- A plan depends on its mode and policy through its decisions only. -/
theorem buildSyncPlan_congr_decision {mode mode' : SyncMode} {policy policy' : SyncPolicy}
    (h : ∀ s d, planDecision mode policy compareMode s d =
      planDecision mode' policy' compareMode s d) :
    buildSyncPlan source destination mode policy compareMode =
      buildSyncPlan source destination mode' policy' compareMode := by
  have hstep : planStep (.ofListing source) (.ofListing destination) mode policy compareMode =
      planStep (.ofListing source) (.ofListing destination) mode' policy' compareMode := by
    funext plan path
    unfold planStep planItem
    rw [h]
  simp only [buildSyncPlan, hstep]

end

/-- Copying ignores the policy and plans as synchronizing under its fixed one does; what
a diff previews is what synchronizing plans. -/
theorem buildSyncPlan_modes (source destination : List SyncObject) (policy : SyncPolicy)
    (compareMode : SyncCompareMode) (deletePhase : SyncDeletePhase) :
    (∀ other, buildSyncPlan source destination .copy policy compareMode =
        buildSyncPlan source destination .copy other compareMode) ∧
      buildSyncPlan source destination .copy policy compareMode =
        buildSyncPlan source destination .sync (copyPolicy deletePhase) compareMode ∧
      buildSyncPlan source destination .diff policy compareMode =
        buildSyncPlan source destination .sync policy compareMode := by
  have hcopy : ∀ any, buildSyncPlan source destination .copy any compareMode =
      buildSyncPlan source destination .sync (copyPolicy deletePhase) compareMode :=
    fun any => buildSyncPlan_congr_decision (planDecision_copy any deletePhase compareMode)
  constructor
  · intro other
    rw [hcopy policy, hcopy other]
  · exact ⟨hcopy policy,
      buildSyncPlan_congr_decision (planDecision_diff policy compareMode)⟩

/-! ## Modified times -/

/-- The reason of a pair whose modified times compare this way. -/
def reasonOf : Ordering → SyncPlanReason
  | .lt => .destinationNewer
  | .eq => .identical
  | .gt => .sourceNewer

theorem reasonOf_inj {o o' : Ordering} (h : reasonOf o = reasonOf o') : o = o' := by
  cases o <;> cases o' <;> first | rfl | cases h

/-- A pair is classified by its instants. -/
structure Chronological (source destination : Timestamp) (reason : SyncPlanReason) : Prop where
  identical_iff : reason = .identical ↔ source.instant = destination.instant
  destinationNewer_iff : reason = .destinationNewer ↔ source.instant < destination.instant
  sourceNewer_iff : reason = .sourceNewer ↔ destination.instant < source.instant

theorem chronological_iff {s d : Timestamp} {o : Ordering} :
    Chronological s d (reasonOf o) ↔ o = order s.instant d.instant := by
  constructor
  · intro h
    cases o with
    | lt => exact (order_of_lt (h.destinationNewer_iff.mp rfl)).symm
    | eq => exact (order_eq_eq_iff.mpr (h.identical_iff.mp rfl)).symm
    | gt => exact (order_of_gt (h.sourceNewer_iff.mp rfl)).symm
  · intro h
    subst h
    have hreason : ∀ o, reasonOf (order s.instant d.instant) = reasonOf o ↔
        order s.instant d.instant = o :=
      fun o => ⟨reasonOf_inj, congrArg reasonOf⟩
    constructor
    · exact (hreason .eq).trans order_eq_eq_iff
    · exact (hreason .lt).trans order_eq_lt_iff
    · exact (hreason .gt).trans order_eq_gt_iff

section

variable {source destination : SyncObject} {sourceText destinationText : Str}

/-- Objects of one size are classified by the texts of their modified times. -/
theorem compareSyncObjects_reason (hsize : source.size = destination.size)
    (hsource : source.modified = some sourceText)
    (hdestination : destination.modified = some destinationText) (policy : SyncPolicy) :
    (compareSyncObjects source destination .updateIfSourceNewer policy).2 =
      reasonOf (order sourceText destinationText) := by
  unfold compareSyncObjects notNewer updateOrConflict
  simp only [hsize, hsource, hdestination, ne_eq, not_true, if_false, Option.some.injEq,
    decide_eq_true_eq]
  rcases lt_trichotomy sourceText destinationText with hlt | heq | hgt
  · rw [order_of_lt hlt, if_neg hlt.ne, if_pos hlt.le]
    cases policy.destinationNewerPolicy <;> cases policy.overwriteChanged <;> rfl
  · rw [heq, order_self, if_pos rfl]
    rfl
  · rw [order_of_gt hgt, if_neg hgt.ne', if_neg hgt.not_ge]
    cases policy.overwriteChanged <;> rfl

theorem compareCopyObjects_reason (hsize : source.size = destination.size)
    (hsource : source.modified = some sourceText)
    (hdestination : destination.modified = some destinationText) :
    (compareCopyObjects source destination .updateIfSourceNewer).2 =
      reasonOf (order sourceText destinationText) := by
  rw [compareCopyObjects_eq source destination .updateIfSourceNewer .after]
  exact compareSyncObjects_reason hsize hsource hdestination _

end

/-- Modified times are compared chronologically exactly when, within one second, neither
fraction goes on where the other one ends. -/
theorem compare_chronological_iff (s d : Timestamp) {source destination : SyncObject}
    (hsize : source.size = destination.size) (hsource : source.modified = some s.text)
    (hdestination : destination.modified = some d.text) :
    ((∀ policy, Chronological s d
          (compareSyncObjects source destination .updateIfSourceNewer policy).2) ∧
        Chronological s d (compareCopyObjects source destination .updateIfSourceNewer).2) ↔
      ¬ s.Extends d := by
  rw [← Timestamp.order_text_iff, ← chronological_iff,
    compareCopyObjects_reason hsize hsource hdestination]
  simp only [compareSyncObjects_reason hsize hsource hdestination]
  constructor
  · exact fun h => h.2
  · exact fun h => ⟨fun _ => h, h⟩

/-- Noon, with these digits behind its seconds. -/
def noon (fraction : Str) (hdigits : ∀ c ∈ fraction, c.isDigit = true)
    (hlength : fraction.length ≤ 9) : Timestamp where
  date := ⟨2024, 5, 1, by decide, by decide⟩
  hour := 12
  minute := 0
  second := 0
  fraction := fraction
  year_lt := by decide
  hour_lt := by decide
  minute_lt := by decide
  second_lt := by decide
  fraction_digits := hdigits
  fraction_length := hlength

def wholeSecond : Timestamp := noon [] (by simp) (by decide)

def halfSecond : Timestamp := noon ['5'] (by simp) (by decide)

def quarterSecond : Timestamp := noon ['2', '5'] (by simp) (by decide)

def modifiedAt (t : Timestamp) : SyncObject :=
  { relativePath := "a.txt".toList
    size := 1
    modified := some t.text
    etag := none
    isDirMarker := false }

theorem compare_chronological_iff_halves :
    ((∀ policy, Chronological halfSecond quarterSecond (compareSyncObjects
          (modifiedAt halfSecond) (modifiedAt quarterSecond) .updateIfSourceNewer policy).2) ∧
        Chronological halfSecond quarterSecond (compareCopyObjects
          (modifiedAt halfSecond) (modifiedAt quarterSecond) .updateIfSourceNewer).2) ↔
      ¬ halfSecond.Extends quarterSecond :=
  compare_chronological_iff halfSecond quarterSecond rfl rfl rfl

/-- The bucket's object is from noon and the local file from half a second later: the
older object counts as the newer one. -/
theorem older_source_overwrites :
    ¬ ∀ (s d : Timestamp) (source destination : SyncObject),
      source.size = destination.size → source.modified = some s.text →
        destination.modified = some d.text →
          (∀ policy, Chronological s d
              (compareSyncObjects source destination .updateIfSourceNewer policy).2) ∧
            Chronological s d
              (compareCopyObjects source destination .updateIfSourceNewer).2 := by
  intro h
  have hcopy := (h wholeSecond halfSecond (modifiedAt wholeSecond) (modifiedAt halfSecond)
    rfl rfl rfl).2
  have hreason := @compareCopyObjects_reason (modifiedAt wholeSecond) (modifiedAt halfSecond)
    wholeSecond.text halfSecond.text rfl rfl rfl
  rw [hreason, chronological_iff, Timestamp.order_text_iff] at hcopy
  exact hcopy ⟨rfl, List.cons_ne_nil _ _ ∘ Eq.symm, .inl List.nil_prefix⟩

end AbixioUi
