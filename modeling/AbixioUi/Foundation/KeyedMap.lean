import Mathlib.Data.List.Destutter
import Mathlib.Data.List.Sort
import Std.Data.TreeMap.Lemmas

/-! # Maps built from keyed items

Inserting a list of items under their own keys keeps, for every key, the last
item that has it. The keys of two such maps, sorted and without repetitions, are
the domain of a merge.
-/

namespace AbixioUi.Foundation

universe u v

section Map

variable {κ : Type u} {ι : Type v} [Ord κ] (key : ι → κ)

/-- Insert every item under its key; a later item replaces an earlier one. -/
def insertAll (items : List ι) : Std.TreeMap κ ι :=
  items.foldl (fun map item => map.insert (key item) item) ∅

theorem insertAll_snoc (items : List ι) (item : ι) :
    insertAll key (items ++ [item]) = (insertAll key items).insert (key item) item := by
  simp [insertAll]

variable [Std.TransOrd κ] [Std.LawfulEqOrd κ] {key} {items : List ι} {item : ι} {k : κ}

/-- A lookup finds an item of the list that has the key. -/
theorem mem_of_insertAll_eq_some (h : (insertAll key items)[k]? = some item) :
    item ∈ items ∧ key item = k := by
  induction items using List.reverseRecOn with
  | nil => simp [insertAll] at h
  | append_singleton items last ih =>
      rw [insertAll_snoc, Std.TreeMap.getElem?_insert] at h
      by_cases hk : compare (key last) k = .eq
      · rw [if_pos hk] at h
        obtain rfl := Option.some.inj h
        exact ⟨by simp, Std.LawfulEqCmp.eq_of_compare hk⟩
      · rw [if_neg hk] at h
        obtain ⟨hmem, hkey⟩ := ih h
        exact ⟨by simp [hmem], hkey⟩

theorem insertAll_isSome_iff :
    ((insertAll key items)[k]?).isSome ↔ ∃ item ∈ items, key item = k := by
  constructor
  · intro h
    obtain ⟨item, hitem⟩ := Option.isSome_iff_exists.mp h
    exact ⟨item, mem_of_insertAll_eq_some hitem⟩
  · rintro ⟨item, hmem, rfl⟩
    induction items using List.reverseRecOn with
    | nil => simp at hmem
    | append_singleton items last ih =>
        rw [insertAll_snoc, Std.TreeMap.getElem?_insert]
        by_cases hk : compare (key last) (key item) = .eq
        · simp [hk]
        · rw [if_neg hk]
          rcases List.mem_append.mp hmem with hmem | hlast
          · exact ih hmem
          · obtain rfl : item = last := by simpa using hlast
            have hself : compare (key item) (key item) = .eq := Std.ReflCmp.compare_self
            exact absurd hself hk

theorem insertAll_eq_none_iff :
    (insertAll key items)[k]? = none ↔ ∀ item ∈ items, key item ≠ k := by
  rw [← Option.not_isSome_iff_eq_none, insertAll_isSome_iff]
  simp

/-- When the keys are distinct, the map is the list. -/
theorem insertAll_eq_some_iff (hnodup : (items.map key).Nodup) :
    (insertAll key items)[k]? = some item ↔ item ∈ items ∧ key item = k := by
  constructor
  · exact mem_of_insertAll_eq_some
  · rintro ⟨hmem, rfl⟩
    have hsome : ((insertAll key items)[key item]?).isSome :=
      insertAll_isSome_iff.mpr ⟨item, hmem, rfl⟩
    obtain ⟨found, hfound⟩ := Option.isSome_iff_exists.mp hsome
    obtain ⟨hfmem, hfkey⟩ := mem_of_insertAll_eq_some hfound
    rw [hfound, List.inj_on_of_nodup_map hnodup hfmem hmem hfkey]

omit [Std.LawfulEqOrd κ] in
/-- The later list decides where it has the key. -/
theorem insertAll_append_getElem? (items later : List ι) (k : κ) :
    (insertAll key (items ++ later))[k]? =
      ((insertAll key later)[k]?).or ((insertAll key items)[k]?) := by
  induction later using List.reverseRecOn with
  | nil => simp [insertAll]
  | append_singleton later last ih =>
      rw [← List.append_assoc, insertAll_snoc, insertAll_snoc, Std.TreeMap.getElem?_insert,
        Std.TreeMap.getElem?_insert, ih]
      by_cases hk : compare (key last) k = .eq
      · simp [hk]
      · simp [hk]

/-- Keeping the items whose key passes a test restricts the map to those keys. -/
theorem insertAll_filter_getElem? (keep : κ → Bool) (items : List ι) (k : κ) :
    (insertAll key (items.filter fun item => keep (key item)))[k]? =
      if keep k then (insertAll key items)[k]? else none := by
  induction items using List.reverseRecOn with
  | nil => simp [insertAll]
  | append_singleton items last ih =>
      rw [List.filter_append, insertAll_append_getElem?, insertAll_snoc,
        Std.TreeMap.getElem?_insert, ih]
      by_cases hk : compare (key last) k = .eq
      · obtain rfl : key last = k := Std.LawfulEqCmp.eq_of_compare hk
        by_cases hkeep : keep (key last) = true
        · simp [hkeep, insertAll]
        · simp [hkeep, insertAll]
      · have hnone : (insertAll key ([last].filter fun item => keep (key item)))[k]? = none := by
          by_cases hkeep : keep (key last) = true
          · simp [hkeep, insertAll, hk]
          · simp [hkeep, insertAll]
        simp [hk, hnone]

end Map

section Sorted

variable {κ : Type u} [LinearOrder κ]

/-- Sort, then drop adjacent repetitions. -/
def sortDedup (keys : List κ) : List κ := (keys.insertionSort (· ≤ ·)).destutter (· ≠ ·)

theorem sortDedup_eq_dedup (keys : List κ) :
    sortDedup keys = (keys.insertionSort (· ≤ ·)).dedup :=
  (keys.pairwise_insertionSort (· ≤ ·)).destutter_eq_dedup

@[simp] theorem mem_sortDedup {keys : List κ} {k : κ} : k ∈ sortDedup keys ↔ k ∈ keys := by
  rw [sortDedup_eq_dedup, List.mem_dedup, List.mem_insertionSort]

theorem nodup_sortDedup (keys : List κ) : (sortDedup keys).Nodup := by
  rw [sortDedup_eq_dedup]
  exact List.nodup_dedup _

theorem sorted_sortDedup (keys : List κ) : (sortDedup keys).Pairwise (· < ·) := by
  have hle : (sortDedup keys).Pairwise (· ≤ ·) := by
    rw [sortDedup_eq_dedup]
    exact (keys.pairwise_insertionSort (· ≤ ·)).sublist (List.dedup_sublist _)
  exact hle.imp₂ (fun _ _ hle hne => lt_of_le_of_ne hle hne) (nodup_sortDedup keys)

end Sorted

end AbixioUi.Foundation
