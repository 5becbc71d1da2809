import Mathlib.Data.List.Forall2
import Mathlib.Data.List.Perm.Basic
import Mathlib.Data.List.Perm.Subperm
import Mathlib.Data.List.DropRight
import Mathlib.Data.List.TakeWhile

/-! # Lists related item by item, and joined lists

A loop that turns each item into another, and fails when one of them fails,
leaves two lists related by `List.Forall₂`. These are the ways such a pair is
used: along membership in either list, and through a value both sides share.
What an item contributes to a count is gone with it. For lists joined by a
separator, mapping and membership go piece by piece.
-/

namespace AbixioUi.Foundation

universe u v w

variable {α : Type u} {β : Type v} {γ : Type w} {R : α → β → Prop} {as : List α} {bs : List β}

theorem forall₂_exists_right (h : List.Forall₂ R as bs) {a : α} (ha : a ∈ as) :
    ∃ b ∈ bs, R a b := by
  induction h with
  | nil => simp at ha
  | cons hab _ ih =>
      rcases List.mem_cons.mp ha with rfl | ha
      · exact ⟨_, by simp, hab⟩
      · obtain ⟨b, hb, hr⟩ := ih ha
        exact ⟨b, by simp [hb], hr⟩

theorem forall₂_exists_left (h : List.Forall₂ R as bs) {b : β} (hb : b ∈ bs) :
    ∃ a ∈ as, R a b := by
  induction h with
  | nil => simp at hb
  | cons hab _ ih =>
      rcases List.mem_cons.mp hb with rfl | hb
      · exact ⟨_, by simp, hab⟩
      · obtain ⟨a, ha, hr⟩ := ih hb
        exact ⟨a, by simp [ha], hr⟩

/-- A value that related items share is the same along both lists. -/
theorem forall₂_map_eq {f : α → γ} {g : β → γ} (h : List.Forall₂ R as bs)
    (hfg : ∀ a b, R a b → g b = f a) : bs.map g = as.map f := by
  induction h with
  | nil => rfl
  | cons hab _ ih => rw [List.map_cons, List.map_cons, hfg _ _ hab, ih]

theorem forall₂_getElem? (h : List.Forall₂ R as bs) {i : Nat} {a : α} {b : β}
    (ha : as[i]? = some a) (hb : bs[i]? = some b) : R a b := by
  obtain ⟨hia, rfl⟩ := List.getElem?_eq_some_iff.mp ha
  obtain ⟨hib, rfl⟩ := List.getElem?_eq_some_iff.mp hb
  exact h.get hia hib

/-! ## Lists with an item taken out -/

theorem countP_eraseIdx {i : Nat} {a : α} (h : as[i]? = some a) (p : α → Bool) :
    as.countP p = (as.eraseIdx i).countP p + if p a then 1 else 0 := by
  obtain ⟨hlt, rfl⟩ := List.getElem?_eq_some_iff.mp h
  have hperm := List.getElem_cons_eraseIdx_perm hlt
  rw [← hperm.countP_eq, List.countP_cons]

theorem filterMap_eraseIdx_of_none {f : α → Option β} {i : Nat} {a : α} (h : as[i]? = some a)
    (ha : f a = none) : (as.eraseIdx i).filterMap f = as.filterMap f := by
  induction as generalizing i with
  | nil => rfl
  | cons head as ih =>
      cases i with
      | zero =>
          obtain rfl : head = a := by simpa using h
          rw [List.eraseIdx_cons_zero, List.filterMap_cons_none ha]
      | succ i =>
          rw [List.eraseIdx_cons_succ, List.filterMap_cons, List.filterMap_cons]
          rw [ih (by simpa using h)]

/-- Taking out the only item that is mapped leaves none. -/
theorem filterMap_eraseIdx_of_only {f : α → Option β} {i : Nat} {a : α} {b : β}
    (h : as[i]? = some a) (ha : f a = some b) (honly : (as.filterMap f).length ≤ 1) :
    as.filterMap f = [b] ∧ (as.eraseIdx i).filterMap f = [] := by
  obtain ⟨hlt, rfl⟩ := List.getElem?_eq_some_iff.mp h
  have hperm := (List.getElem_cons_eraseIdx_perm hlt).filterMap f
  rw [List.filterMap_cons_some ha] at hperm
  have hlength := hperm.length_eq
  rw [List.length_cons] at hlength
  have hrest : (as.eraseIdx i).filterMap f = [] := List.length_eq_zero_iff.mp (by omega)
  rw [hrest] at hperm
  exact ⟨List.perm_singleton.mp hperm.symm, hrest⟩

theorem length_diff_of_subperm [BEq α] [LawfulBEq α] {as bs : List α} (h : as.Subperm bs) :
    (bs.diff as).length = bs.length - as.length := by
  have hcount := List.subperm_ext_iff.mp h
  have hsum := (List.subperm_append_diff_self_of_count_le hcount).length_eq
  rw [List.length_append] at hsum
  omega

/-- Where the items to drop come first, dropping them is filtering them out. -/
theorem dropWhile_eq_filter {p : α → Bool} {as : List α}
    (h : as.Pairwise fun a b => p b = true → p a = true) :
    as.dropWhile p = as.filter fun a => !p a := by
  induction as with
  | nil => rfl
  | cons a as ih =>
      obtain ⟨hfirst, hrest⟩ := List.pairwise_cons.mp h
      cases ha : p a with
      | true =>
          rw [List.dropWhile_cons_of_pos ha, ih hrest, List.filter_cons_of_neg (by simp [ha])]
      | false =>
          have hkept : ∀ b ∈ as, (!p b) = true := by
            intro b hb
            rw [Bool.not_eq_true', ← Bool.not_eq_true]
            intro hpb
            rw [hfirst b hb hpb] at ha
            cases ha
          rw [List.dropWhile_cons_of_neg (by simp [ha]), List.filter_cons_of_pos (by simp [ha]),
            List.filter_eq_self.mpr hkept]

/-! ## Lists without the items at their ends -/

section Trimming

variable {p : α → Bool} {xs ys zs : List α}

/-- A list without the items at both ends that satisfy the predicate. -/
def trimBoth (p : α → Bool) (xs : List α) : List α := (xs.dropWhile p).rdropWhile p

theorem dropWhile_of_head (h : ∀ x, xs.head? = some x → p x = false) : xs.dropWhile p = xs := by
  cases xs with
  | nil => rfl
  | cons x xs => exact List.dropWhile_cons_of_neg (by simpa using h x rfl)

theorem rdropWhile_of_last (h : ∀ x, xs.getLast? = some x → p x = false) :
    xs.rdropWhile p = xs := by
  refine List.rdropWhile_eq_self_iff.mpr fun hne => ?_
  simpa using h _ (List.getLast?_eq_some_getLast hne)

theorem trimBoth_of_ends (hhead : ∀ x, xs.head? = some x → p x = false)
    (hlast : ∀ x, xs.getLast? = some x → p x = false) : trimBoth p xs = xs := by
  rw [trimBoth, dropWhile_of_head hhead, rdropWhile_of_last hlast]

/-- What is put around a list is trimmed with the list's own ends. -/
theorem trimBoth_append (hxs : ∀ x ∈ xs, p x = true) (hzs : ∀ z ∈ zs, p z = true)
    (ys : List α) : trimBoth p (xs ++ ys ++ zs) = trimBoth p ys := by
  have hreverse : ∀ z ∈ zs.reverse, p z = true := fun z hz => hzs z (List.mem_reverse.mp hz)
  rw [trimBoth, trimBoth, List.append_assoc, List.dropWhile_append_of_pos hxs,
    List.dropWhile_append]
  split
  next hempty =>
    rw [List.isEmpty_iff.mp hempty, List.dropWhile_eq_nil_iff.mpr hzs]
  next => rw [List.rdropWhile, List.reverse_append, List.dropWhile_append_of_pos hreverse,
    List.rdropWhile]

theorem trimBoth_spec (p : α → Bool) (xs : List α) :
    ∃ front back, xs = front ++ trimBoth p xs ++ back ∧ (∀ x ∈ front, p x = true) ∧
      ∀ x ∈ back, p x = true := by
  refine ⟨xs.takeWhile p, (xs.dropWhile p).rtakeWhile p, ?_, ?_, ?_⟩
  · rw [trimBoth, List.append_assoc, List.rdropWhile_append_rtakeWhile,
      List.takeWhile_append_dropWhile]
  · exact fun x hx => List.mem_takeWhile_imp hx
  · exact fun x hx => List.mem_rtakeWhile_imp hx

theorem trimBoth_last {x : α} (h : (trimBoth p xs).getLast? = some x) : p x = false := by
  have hne : trimBoth p xs ≠ [] := fun hnil => by
    rw [hnil] at h
    cases h
  obtain rfl := Option.some.inj ((List.getLast?_eq_some_getLast hne).symm.trans h)
  exact Bool.eq_false_iff.mpr (List.rdropWhile_last_not p (xs.dropWhile p) hne)

theorem trimBoth_head {x : α} (h : (trimBoth p xs).head? = some x) : p x = false := by
  obtain ⟨back, hback⟩ := List.rdropWhile_prefix p (xs.dropWhile p)
  have hnot := List.head?_dropWhile_not p xs
  rw [← hback, List.head?_append,
    show ((xs.dropWhile p).rdropWhile p).head? = some x from h] at hnot
  exact hnot

end Trimming

/-! ## Joined lists -/

theorem map_intercalate (f : α → β) (sep : List α) (pieces : List (List α)) :
    (sep.intercalate pieces).map f = (sep.map f).intercalate (pieces.map (List.map f)) := by
  induction pieces with
  | nil => rfl
  | cons piece pieces ih =>
      by_cases hrest : pieces = []
      · subst hrest
        simp
      · have hmap : pieces.map (List.map f) ≠ [] := by simpa using hrest
        rw [List.intercalate_cons_of_ne_nil hrest, List.map_cons,
          List.intercalate_cons_of_ne_nil hmap, ← ih]
        simp

theorem mem_intercalate {sep : List α} {pieces : List (List α)} {a : α}
    (h : a ∈ sep.intercalate pieces) : a ∈ sep ∨ ∃ piece ∈ pieces, a ∈ piece := by
  induction pieces with
  | nil => simp at h
  | cons piece pieces ih =>
      by_cases hrest : pieces = []
      · subst hrest
        exact .inr ⟨piece, by simp, by simpa using h⟩
      · rw [List.intercalate_cons_of_ne_nil hrest] at h
        rcases List.mem_append.mp h with h | h
        · rcases List.mem_append.mp h with h | h
          · exact .inr ⟨piece, by simp, h⟩
          · exact .inl h
        · rcases ih h with h | ⟨found, hfound, h⟩
          · exact .inl h
          · exact .inr ⟨found, by simp [hfound], h⟩

theorem mem_intercalate_of_mem {sep : List α} {pieces : List (List α)} {piece : List α} {a : α}
    (hpiece : piece ∈ pieces) (h : a ∈ piece) : a ∈ sep.intercalate pieces := by
  induction pieces with
  | nil => cases hpiece
  | cons first pieces ih =>
      by_cases hrest : pieces = []
      · subst hrest
        rw [List.mem_singleton] at hpiece
        rw [List.intercalate_singleton, ← hpiece]
        exact h
      · rw [List.intercalate_cons_of_ne_nil hrest]
        rcases List.mem_cons.mp hpiece with rfl | hlater
        · exact List.mem_append_left _ (List.mem_append_left _ h)
        · exact List.mem_append_right _ (ih hlater)

/-- Pieces without the separator have one separator less between them than there are. -/
theorem count_intercalate [DecidableEq α] {sep : α} {pieces : List (List α)} (hne : pieces ≠ [])
    (hpieces : ∀ piece ∈ pieces, sep ∉ piece) :
    ([sep].intercalate pieces).count sep + 1 = pieces.length := by
  induction pieces with
  | nil => exact absurd rfl hne
  | cons first pieces ih =>
      obtain ⟨hfirst, hlater⟩ := List.forall_mem_cons.mp hpieces
      by_cases hrest : pieces = []
      · subst hrest
        rw [List.intercalate_singleton, List.count_eq_zero_of_not_mem hfirst]
        rfl
      · rw [List.intercalate_cons_of_ne_nil hrest, List.count_append, List.count_append,
          List.count_eq_zero_of_not_mem hfirst, List.count_singleton_self, List.length_cons,
          ← ih hrest hlater]
        omega

/-! ## Lists up to the first item that ends them -/

/-- The items up to the first that satisfies the predicate, and that one. -/
def takeThrough (p : α → Bool) : List α → List α
  | [] => []
  | x :: xs => if p x then [x] else x :: takeThrough p xs

theorem takeThrough_append {p : α → Bool} {front back : List α} {last : α}
    (hfront : ∀ x ∈ front, p x = false) (hlast : p last = true) :
    takeThrough p (front ++ last :: back) = front ++ [last] := by
  induction front with
  | nil => rw [List.nil_append, takeThrough, if_pos hlast, List.nil_append]
  | cons x front ih =>
      obtain ⟨hx, hrest⟩ := List.forall_mem_cons.mp hfront
      rw [List.cons_append, takeThrough, hx, ih hrest, List.cons_append]
      rfl

/-- No item ends the list, or it splits at the first that does. -/
theorem exists_first_or_forall (p : α → Bool) (xs : List α) :
    (∀ x ∈ xs, p x = false) ∨
      ∃ front last back, xs = front ++ last :: back ∧ (∀ x ∈ front, p x = false) ∧
        p last = true := by
  induction xs with
  | nil => exact .inl fun _ h => absurd h List.not_mem_nil
  | cons x xs ih =>
      by_cases hx : p x = true
      · exact .inr ⟨[], x, xs, rfl, fun _ h => absurd h List.not_mem_nil, hx⟩
      · rw [Bool.not_eq_true] at hx
        rcases ih with hnone | ⟨front, last, back, hsplit, hfront, hlast⟩
        · exact .inl (List.forall_mem_cons.mpr ⟨hx, hnone⟩)
        · refine .inr ⟨x :: front, last, back, ?_, List.forall_mem_cons.mpr ⟨hx, hfront⟩, hlast⟩
          rw [hsplit, List.cons_append]

/-! ## Numbered lists -/

theorem mem_dropLast_map_range {f : Nat → α} {n : Nat} {a : α}
    (h : a ∈ ((List.range n).map f).dropLast) : ∃ i, i + 1 < n ∧ f i = a := by
  cases n with
  | zero => cases h
  | succ n =>
      rw [List.range_succ, List.map_append, List.map_singleton, List.dropLast_concat] at h
      obtain ⟨i, hi, rfl⟩ := List.mem_map.mp h
      exact ⟨i, Nat.succ_lt_succ (List.mem_range.mp hi), rfl⟩

theorem mem_getLast?_map_range {f : Nat → α} {n : Nat} {a : α}
    (h : a ∈ ((List.range n).map f).getLast?) : ∃ i, i + 1 = n ∧ f i = a := by
  cases n with
  | zero => cases h
  | succ n =>
      rw [List.range_succ, List.map_append, List.map_singleton, List.getLast?_concat] at h
      exact ⟨n, rfl, Option.some.inj h⟩

/-! ## Lists cut into pieces -/

/-- The `i`-th piece of a list that is cut every `n` items. -/
def piece (n : Nat) (as : List α) (i : Nat) : List α := (as.drop (i * n)).take n

theorem length_piece (n : Nat) (as : List α) (i : Nat) :
    (piece n as i).length = min n (as.length - i * n) := by
  rw [piece, List.length_take, List.length_drop]

/-- A piece is the front of what is left, and no longer than that is. -/
theorem take_left_eq_piece (n : Nat) (as : List α) (i : Nat) :
    (as.drop (i * n)).take (min (as.length - i * n) n) = piece n as i := by
  rw [piece, Nat.min_comm, ← List.take_take, ← List.length_drop, List.take_length]

/-- After a piece the later ones are left. -/
theorem drop_left_eq_drop (n : Nat) (as : List α) (i : Nat) :
    (as.drop (i * n)).drop (min (as.length - i * n) n) = as.drop ((i + 1) * n) := by
  rw [List.drop_drop, Nat.succ_mul]
  by_cases hle : n ≤ as.length - i * n
  · rw [Nat.min_eq_right hle]
  · rw [List.drop_eq_nil_of_le (by omega), List.drop_eq_nil_of_le (by omega)]

/-- The first pieces together are the front of the list. -/
theorem flatten_pieces (n : Nat) (as : List α) (count : Nat) :
    ((List.range count).map (piece n as)).flatten = as.take (count * n) := by
  induction count with
  | zero => rw [Nat.zero_mul, List.take_zero]; rfl
  | succ count ih =>
      rw [List.range_succ, List.map_append, List.flatten_append, ih, Nat.succ_mul,
        List.take_add]
      simp [piece]

/-- Where all that pass come first, the front of the list has them all if it has room for
them. -/
theorem filter_take_of_first {p : α → Bool} {as : List α}
    (hfirst : as.Pairwise fun a b => p b = true → p a = true) {n : Nat}
    (hroom : (as.filter p).length ≤ n) : (as.take n).filter p = as.filter p := by
  induction as generalizing n with
  | nil => rw [List.take_nil]
  | cons a as ih =>
      obtain ⟨hhead, htail⟩ := List.pairwise_cons.mp hfirst
      by_cases ha : p a = true
      · rw [List.filter_cons_of_pos ha, List.length_cons] at hroom
        cases n with
        | zero => omega
        | succ n =>
            rw [List.take_succ_cons, List.filter_cons_of_pos ha, List.filter_cons_of_pos ha,
              ih htail (by omega)]
      · have hnone : ∀ b ∈ a :: as, ¬ p b = true := by
          intro b hb
          rcases List.mem_cons.mp hb with rfl | hb
          · exact ha
          · exact fun hpasses => ha (hhead b hb hpasses)
        rw [List.filter_eq_nil_iff.mpr hnone]
        exact List.filter_eq_nil_iff.mpr fun b hb => hnone b (List.mem_of_mem_take hb)

/-! ## Lists of items with keys -/

section Keys

variable {ι : Type u} {κ : Type v} {key : ι → κ} {items : List ι}

theorem nodup_keys_filter (hnodup : (items.map key).Nodup) (p : ι → Bool) :
    ((items.filter p).map key).Nodup :=
  hnodup.sublist (List.filter_sublist.map key)

variable [DecidableEq κ]

/-- Where keys are distinct, an item is found under its key. -/
theorem find?_key_of_nodup (hnodup : (items.map key).Nodup) {item : ι} (hmem : item ∈ items) :
    items.find? (fun other => key other = key item) = some item := by
  induction items with
  | nil => cases hmem
  | cons head items ih =>
      obtain ⟨hfresh, hrest⟩ := List.nodup_cons.mp hnodup
      rcases List.mem_cons.mp hmem with rfl | hmem
      · exact List.find?_cons_of_pos (decide_eq_true rfl)
      · have hne : key head ≠ key item := fun heq =>
          hfresh (List.mem_map.mpr ⟨item, hmem, heq.symm⟩)
        rw [List.find?_cons_of_neg (by simpa using hne)]
        exact ih hrest hmem

/-- An item that takes the place of those with its key leaves keys distinct. -/
theorem nodup_keys_replace (hnodup : (items.map key).Nodup) (item : ι) :
    ((items.filter (fun other => key other ≠ key item) ++ [item]).map key).Nodup := by
  rw [List.map_append, List.map_singleton, List.nodup_append]
  refine ⟨nodup_keys_filter hnodup _, List.pairwise_singleton _ _, fun k hk k' hk' => ?_⟩
  obtain ⟨other, hother, rfl⟩ := List.mem_map.mp hk
  rw [List.mem_singleton.mp hk']
  simpa using (List.mem_filter.mp hother).2

end Keys

end AbixioUi.Foundation
