import AbixioUi.App.Preview
import AbixioUi.Browse.State
import AbixioUi.Foundation.Timestamps
import Mathlib.Data.Char
import Mathlib.Data.List.Lex

/-! # The versions of an object

The versions are asked for by prefix and one page of them is read. The client puts the
delete markers behind the versions and sorts by the printed times, latest first; the panel
shows the entries of the selected key, each with the buttons that fit it.
-/

namespace AbixioUi

open Foundation

/-! ## The response -/

structure ObjectVersion where
  key : Option Str
  versionId : Option Str
  isLatest : Option Bool
  size : Option Int
  /-- The time as the client prints it. -/
  lastModified : Option Str
  eTag : Option Str
deriving DecidableEq, Repr

structure DeleteMarkerEntry where
  key : Option Str
  versionId : Option Str
  isLatest : Option Bool
  lastModified : Option Str
deriving DecidableEq, Repr

structure ListObjectVersionsOutput where
  versions : List ObjectVersion
  deleteMarkers : List DeleteMarkerEntry
deriving DecidableEq, Repr

def ObjectVersion.info (v : ObjectVersion) : VersionInfo where
  key := v.key.getD []
  versionId := v.versionId.getD "null".toList
  isLatest := v.isLatest.getD false
  isDeleteMarker := false
  size := ((v.size.getD 0) % 2 ^ 64).toNat
  lastModified := v.lastModified.getD []
  etag := v.eTag.getD []

def DeleteMarkerEntry.info (marker : DeleteMarkerEntry) : VersionInfo where
  key := marker.key.getD []
  versionId := marker.versionId.getD "null".toList
  isLatest := marker.isLatest.getD false
  isDeleteMarker := true
  size := 0
  lastModified := marker.lastModified.getD []
  etag := []

/-- The later text is first; entries with one text keep their order. -/
def sortVersions (versions : List VersionInfo) : List VersionInfo :=
  versions.insertionSort fun a b => b.lastModified ≤ a.lastModified

def listObjectVersions (resp : Except String ListObjectVersionsOutput) :
    Except String (List VersionInfo) :=
  resp.map fun page =>
    sortVersions (page.versions.map ObjectVersion.info ++
      page.deleteMarkers.map DeleteMarkerEntry.info)

/-! ## The panel -/

/-- The entries of the selected key. -/
def objVersions (key : Str) (versions : List VersionInfo) : List VersionInfo :=
  versions.filter (·.key = key)

/-- A long identifier is cut after eight bytes; `none` is a panic inside a character. -/
def vidShort (vid : Str) : Option Str :=
  if 8 < utf8Len vid then (sliceTo vid 8).map (· ++ "...".toList) else some vid

structure VersionRow where
  label : Str
  /-- The version that the row offers to restore. -/
  restore : Option Str
  delete : Str
deriving DecidableEq, Repr

def VersionInfo.row (v : VersionInfo) : Option VersionRow :=
  (vidShort v.versionId).map fun short =>
    { label :=
        if v.isDeleteMarker then short ++ " (delete marker)".toList
        else if v.isLatest then short ++ " (latest) ".toList ++ natToStr v.size ++ ['B']
        else short ++ ' ' :: natToStr v.size ++ ['B']
      restore := if !v.isDeleteMarker && !v.isLatest then some v.versionId else none
      delete := v.versionId }

/-- The rows of the panel; `none` is a panic of one of them. -/
def versionRows (key : Str) (versions : List VersionInfo) : Option (List VersionRow) :=
  (objVersions key versions).mapM VersionInfo.row

theorem vidShort_isSome_iff (vid : Str) :
    (vidShort vid).isSome ↔
      utf8Len vid ≤ 8 ∨ ∃ k, ((vid.map Char.utf8Size).take k).sum = 8 := by
  unfold vidShort
  by_cases hlong : 8 < utf8Len vid
  · rw [if_pos hlong, Option.isSome_map, sliceTo_isSome_iff]
    constructor
    · exact .inr
    · intro h
      exact h.resolve_left (Nat.not_le_of_lt hlong)
  · rw [if_neg hlong]
    exact iff_of_true rfl (.inl (Nat.le_of_not_lt hlong))

theorem mapM_row_isSome_iff (versions : List VersionInfo) :
    (versions.mapM VersionInfo.row).isSome ↔ ∀ v ∈ versions, (vidShort v.versionId).isSome := by
  induction versions with
  | nil => simp
  | cons v versions ih =>
      have hrow : v.row.isSome ↔ (vidShort v.versionId).isSome := by
        rw [VersionInfo.row, Option.isSome_map]
      rw [List.forall_mem_cons, ← hrow, ← ih, List.mapM_cons]
      cases v.row with
      | none => simp
      | some row => cases versions.mapM VersionInfo.row <;> simp

/-! ## One page of a listing -/

/-- An entry of the listing of a server. -/
inductive VersionEntry
  | version (v : ObjectVersion)
  | marker (entry : DeleteMarkerEntry)
deriving DecidableEq, Repr

namespace VersionEntry

def info : VersionEntry → VersionInfo
  | .version v => v.info
  | .marker entry => entry.info

def version? : VersionEntry → Option ObjectVersion
  | .version v => some v
  | .marker _ => none

def marker? : VersionEntry → Option DeleteMarkerEntry
  | .version _ => none
  | .marker entry => some entry

end VersionEntry

/-- What a response has of a listing: its first entries, each kind on its own. -/
def firstVersionsPage (limit : Nat) (entries : List VersionEntry) : ListObjectVersionsOutput where
  versions := (entries.take limit).filterMap VersionEntry.version?
  deleteMarkers := (entries.take limit).filterMap VersionEntry.marker?

theorem infos_perm (entries : List VersionEntry) :
    ((entries.filterMap VersionEntry.version?).map ObjectVersion.info ++
        (entries.filterMap VersionEntry.marker?).map DeleteMarkerEntry.info).Perm
      (entries.map VersionEntry.info) := by
  induction entries with
  | nil => exact .refl _
  | cons entry entries ih =>
      cases entry with
      | version v => exact ih.cons v.info
      | marker entry => exact List.perm_middle.trans (ih.cons entry.info)

/-- The client keeps every entry of the page. -/
theorem listObjectVersions_perm {limit : Nat} {entries : List VersionEntry}
    {versions : List VersionInfo}
    (hload : listObjectVersions (.ok (firstVersionsPage limit entries)) = .ok versions) :
    versions.Perm ((entries.take limit).map VersionEntry.info) := by
  rw [← Except.ok.inj hload]
  exact (List.perm_insertionSort _ _).trans (infos_perm _)

/-- The entries of the panel, latest text first. -/
theorem objVersions_sorted {resp : Except String ListObjectVersionsOutput}
    {versions : List VersionInfo} (hload : listObjectVersions resp = .ok versions) (key : Str) :
    (objVersions key versions).Pairwise fun a b => b.lastModified ≤ a.lastModified := by
  cases resp with
  | error e => cases hload
  | ok page =>
      rw [← Except.ok.inj hload]
      apply List.Pairwise.filter
      have htotal : Std.Total fun a b : VersionInfo => b.lastModified ≤ a.lastModified :=
        ⟨fun a b => le_total _ _⟩
      have htrans : IsTrans VersionInfo fun a b => b.lastModified ≤ a.lastModified :=
        ⟨fun a b c hab hbc => hbc.trans hab⟩
      exact List.pairwise_insertionSort _ _

/-! ## What the panel shows -/

section

variable {key : Str} {entries : List VersionEntry} {limit : Nat} {versions : List VersionInfo}

/-- In a listing by keys that all start with the selected one, its own entries are first. -/
theorem selected_first (hordered : (entries.map (·.info.key)).Pairwise (· ≤ ·))
    (hunder : ∀ entry ∈ entries, key <+: entry.info.key) :
    entries.Pairwise fun a b =>
      decide (b.info.key = key) = true → decide (a.info.key = key) = true := by
  refine (List.pairwise_map.mp hordered).imp_of_mem ?_
  intro a b ha _ hle hb
  have hkey : b.info.key = key := of_decide_eq_true hb
  have hback : key ≤ a.info.key := le_of_not_gt (hunder a ha).le
  exact decide_eq_true (le_antisymm (hkey ▸ hle) hback)

/-- The panel shows the page's entries of the selected key, each of them once. -/
theorem objVersions_perm (key : Str)
    (hload : listObjectVersions (.ok (firstVersionsPage limit entries)) = .ok versions) :
    (objVersions key versions).Perm
      (((entries.take limit).filter fun entry => decide (entry.info.key = key)).map
        VersionEntry.info) := by
  have hperm := (listObjectVersions_perm hload).filter (·.key = key)
  rw [List.filter_map] at hperm
  exact hperm

/-- Sorting by texts is sorting by times exactly where no time shows more of its second. -/
theorem newest_first_iff {shown : List VersionInfo}
    (hsorted : shown.Pairwise fun a b => b.lastModified ≤ a.lastModified)
    {time : VersionInfo → Timestamp} (htime : ∀ v ∈ shown, v.lastModified = (time v).text) :
    (shown.Pairwise fun a b => (time b).instant ≤ (time a).instant) ↔
      ∀ a ∈ shown, ∀ b ∈ shown, (time a).Extends (time b) →
        (time a).instant = (time b).instant := by
  constructor
  · intro hnewest
    -- of two entries the one that is shown first has the later text and the later time
    have hagree : ∀ a ∈ shown, ∀ b ∈ shown, (time a).Extends (time b) →
        ¬ (time a).instant < (time b).instant := by
      intro a ha b hb hextends hlt
      have htext := hextends.text_lt hlt
      rw [← htime a ha, ← htime b hb] at htext
      have hboth : shown.Pairwise fun a b =>
          b.lastModified ≤ a.lastModified ∧ (time b).instant ≤ (time a).instant ∨
            a.lastModified ≤ b.lastModified ∧ (time a).instant ≤ (time b).instant :=
        (hsorted.and hnewest).imp fun h => Or.inl h
      have hsymm : Std.Symm fun a b : VersionInfo =>
          b.lastModified ≤ a.lastModified ∧ (time b).instant ≤ (time a).instant ∨
            a.lastModified ≤ b.lastModified ∧ (time a).instant ≤ (time b).instant :=
        ⟨fun _ _ => Or.symm⟩
      have hne : a ≠ b := by
        intro heq
        rw [heq] at hlt
        exact lt_irrefl _ hlt
      rcases hboth.forall ha hb hne with ⟨-, hle⟩ | ⟨hle, -⟩
      · omega
      · exact absurd hle (not_le_of_gt htext)
    intro a ha b hb hextends
    have hforward := hagree a ha b hb hextends
    have hbackward := hagree b hb a ha hextends.symm
    omega
  · intro hequal
    refine hsorted.imp_of_mem ?_
    intro a b ha hb hle
    by_contra hlater
    have hlt : (time a).instant < (time b).instant := Nat.lt_of_not_le hlater
    have hplain : ¬ (time a).Extends (time b) := by
      intro hextends
      have hsame := hequal a ha b hb hextends
      omega
    have horder := (Timestamp.order_text_iff (time a) (time b)).mpr hplain
    rw [order_of_lt hlt, order_eq_lt_iff, ← htime a ha, ← htime b hb] at horder
    exact absurd hle (not_le_of_gt horder)

/-- Of a listing by keys, read to its first entries, the panel has all of the selected key
exactly if they fit in the page; it shows them newest first exactly if no time among them
shows more of a second than another; and it shows them without a panic exactly if each
identifier is short or has a character ending at its eighth byte. -/
theorem versions_panel_exact (hordered : (entries.map (·.info.key)).Pairwise (· ≤ ·))
    (hunder : ∀ entry ∈ entries, key <+: entry.info.key)
    (hload : listObjectVersions (.ok (firstVersionsPage limit entries)) = .ok versions) :
    let shown := objVersions key versions
    let own := (entries.map VersionEntry.info).filter (·.key = key)
    (shown.Perm own ↔ own.length ≤ limit) ∧
    (∀ time : VersionInfo → Timestamp, (∀ v ∈ shown, v.lastModified = (time v).text) →
      ((shown.Pairwise fun a b => (time b).instant ≤ (time a).instant) ↔
        ∀ a ∈ shown, ∀ b ∈ shown, (time a).Extends (time b) →
          (time a).instant = (time b).instant)) ∧
    ((versionRows key versions).isSome ↔ ∀ v ∈ shown,
      utf8Len v.versionId ≤ 8 ∨ ∃ k, ((v.versionId.map Char.utf8Size).take k).sum = 8) := by
  intro shown own
  have hshown := objVersions_perm key hload
  have hown : own = (entries.filter fun entry => decide (entry.info.key = key)).map
      VersionEntry.info := List.filter_map
  refine ⟨⟨?_, ?_⟩, ?_, ?_⟩
  · intro hperm
    rw [hperm.symm.length_eq, hshown.length_eq, List.length_map]
    calc ((entries.take limit).filter fun entry => decide (entry.info.key = key)).length
        ≤ (entries.take limit).length := List.length_filter_le _ _
      _ ≤ limit := List.length_take_le _ _
  · intro hroom
    rw [hown, List.length_map] at hroom
    rw [filter_take_of_first (selected_first hordered hunder) hroom, ← hown] at hshown
    exact hshown
  · intro time htime
    exact newest_first_iff (objVersions_sorted hload key) htime
  · rw [versionRows, mapM_row_isSome_iff]
    exact forall₂_congr fun v _ => vidShort_isSome_iff v.versionId

end

/-- Two versions of one object, and one of an object whose key goes on. -/
def archivedEntries : List VersionEntry :=
  [.version ⟨some "a".toList, some "v2".toList, some true, some 7, none, none⟩,
    .marker ⟨some "a".toList, some "v1".toList, some false, none⟩,
    .version ⟨some "a.bak".toList, some "v1".toList, some true, some 7, none, none⟩]

def archivedPage : List VersionInfo :=
  sortVersions ((archivedEntries.take 2).map VersionEntry.info)

theorem versions_panel_exact_archived :
    (objVersions "a".toList archivedPage).Perm
      ((archivedEntries.map VersionEntry.info).filter (·.key = "a".toList)) :=
  (versions_panel_exact (by decide) (by decide)
    (show listObjectVersions (.ok (firstVersionsPage 2 archivedEntries)) = .ok archivedPage
      from rfl)).1.mpr (by decide)

end AbixioUi
