import Mathlib.Data.List.Basic

/-! # Round trips through fallible conversions

A record is converted field by field, each field by its own conversion. Going there
and back is proved for the fields and assembled for the record: optional fields and
lists inherit the round trip of what they hold.
-/

namespace AbixioUi.Foundation

/-- An optional result, as the result of an option. -/
def transpose {ε α : Type} : Option (Except ε α) → Except ε (Option α)
  | none => .ok none
  | some (.ok a) => .ok (some a)
  | some (.error e) => .error e

/-- The first error, or every value. -/
def collect {ε α : Type} : List (Except ε α) → Except ε (List α)
  | [] => .ok []
  | .error e :: _ => .error e
  | .ok a :: results =>
      match collect results with
      | .error e => .error e
      | .ok as => .ok (a :: as)

/-- No list for no results. -/
def collectNonempty {ε α : Type} (results : List (Except ε α)) : Except ε (Option (List α)) :=
  transpose (if results = [] then none else some (collect results))

/-- An absent list in place of an empty one. -/
def absentIfEmpty {α : Type} : Option (List α) → Option (List α)
  | some [] => none
  | list => list

/-- There and back: both conversions succeed, and the second returns `c`. -/
def RoundTrips {ε α β γ : Type} (there : α → Except ε β) (back : β → Except ε γ) (a : α) (c : γ) :
    Prop :=
  ∃ b, there a = .ok b ∧ back b = .ok c

variable {ε α β γ : Type}

theorem bind_eq_ok {x : Except ε α} {f : α → Except ε β} {b : β} (h : x >>= f = .ok b) :
    ∃ a, x = .ok a ∧ f a = .ok b := by
  cases x with
  | error e => cases h
  | ok a => exact ⟨a, rfl, h⟩

theorem ok_of_map_eq_ok {x : Except ε α} {f : α → β} {b : β} (h : x.map f = .ok b) :
    ∃ a, x = .ok a := by
  cases x with
  | error e => cases h
  | ok a => exact ⟨a, rfl⟩

/-! ## Options -/

theorem transpose_map_ok {f : α → Except ε β} {o : Option α} {result : Option β}
    (h : transpose (o.map f) = .ok result) : ∀ a, o = some a → ∃ b, f a = .ok b := by
  rintro a rfl
  cases hf : f a with
  | error e => simp [transpose, hf] at h
  | ok b => exact ⟨b, rfl⟩

theorem RoundTrips.option {there : α → Except ε β} {back : β → Except ε γ} {normal : α → γ}
    {o : Option α} (h : ∀ a, o = some a → RoundTrips there back a (normal a)) :
    ∃ shown, transpose (o.map there) = .ok shown ∧
      transpose (shown.map back) = .ok (o.map normal) := by
  cases o with
  | none => exact ⟨none, rfl, rfl⟩
  | some a =>
      obtain ⟨b, hthere, hback⟩ := h a rfl
      exact ⟨some b, by simp [transpose, hthere], by simp [transpose, hback]⟩

theorem RoundTrips.option_self {there : α → Except ε β} {back : β → Except ε α} {o : Option α}
    (h : ∀ a, o = some a → RoundTrips there back a a) :
    ∃ shown, transpose (o.map there) = .ok shown ∧ transpose (shown.map back) = .ok o := by
  have hid := @RoundTrips.option _ _ _ _ there back id o h
  rwa [Option.map_id] at hid

/-! ## Lists -/

theorem collect_map_ok {f : α → Except ε β} {as : List α} {bs : List β}
    (h : collect (as.map f) = .ok bs) : ∀ a ∈ as, ∃ b, f a = .ok b := by
  induction as generalizing bs with
  | nil => simp
  | cons a as ih =>
      rw [List.map_cons] at h
      cases hf : f a with
      | error e => simp [collect, hf] at h
      | ok b =>
          cases hrest : collect (as.map f) with
          | error e => simp [collect, hf, hrest] at h
          | ok bs =>
              intro x hx
              rcases List.mem_cons.mp hx with rfl | hx
              · exact ⟨b, hf⟩
              · exact ih hrest x hx

theorem RoundTrips.list {there : α → Except ε β} {back : β → Except ε γ} {normal : α → γ}
    {as : List α} (h : ∀ a ∈ as, RoundTrips there back a (normal a)) :
    ∃ shown, collect (as.map there) = .ok shown ∧
      collect (shown.map back) = .ok (as.map normal) := by
  induction as with
  | nil => exact ⟨[], rfl, rfl⟩
  | cons a as ih =>
      obtain ⟨b, hthere, hback⟩ := h a List.mem_cons_self
      obtain ⟨bs, hthereRest, hbackRest⟩ := ih fun x hx => h x (List.mem_cons_of_mem _ hx)
      exact ⟨b :: bs, by simp [collect, hthere, hthereRest], by simp [collect, hback, hbackRest]⟩

theorem collectNonempty_map_ok {f : α → Except ε β} {as : List α} {result : Option (List β)}
    (h : collectNonempty (as.map f) = .ok result) : ∀ a ∈ as, ∃ b, f a = .ok b := by
  by_cases hnil : as = []
  · simp [hnil]
  · unfold collectNonempty at h
    rw [if_neg (by simpa using hnil)] at h
    cases hcollect : collect (as.map f) with
    | error e => simp [transpose, hcollect] at h
    | ok bs => exact collect_map_ok hcollect

/-- An optional list that is stored as a list comes back absent when it was empty. -/
theorem RoundTrips.optionalList {there : α → Except ε β} {back : β → Except ε γ} {normal : α → γ}
    {o : Option (List α)} (h : ∀ a ∈ o.getD [], RoundTrips there back a (normal a)) :
    ∃ shown, collect ((o.getD []).map there) = .ok shown ∧
      collectNonempty (shown.map back) = .ok (absentIfEmpty (o.map (List.map normal))) := by
  obtain ⟨bs, hthere, hback⟩ := RoundTrips.list h
  refine ⟨bs, hthere, ?_⟩
  cases o with
  | none =>
      obtain rfl : [] = bs := Except.ok.inj hthere
      rfl
  | some as =>
      cases as with
      | nil =>
          obtain rfl : [] = bs := Except.ok.inj hthere
          rfl
      | cons a as =>
          have hbs : bs ≠ [] := by
            rintro rfl
            cases hback
          have hmap : bs.map back ≠ [] := by simpa using hbs
          simp only [collectNonempty, if_neg hmap, hback, transpose]
          rfl

/-- A list that is stored as an optional list comes back whole. -/
theorem RoundTrips.storedList {there : α → Except ε β} {back : β → Except ε γ} {normal : α → γ}
    {as : List α} (h : ∀ a ∈ as, RoundTrips there back a (normal a)) :
    ∃ shown, collectNonempty (as.map there) = .ok shown ∧
      collect ((shown.getD []).map back) = .ok (as.map normal) := by
  obtain ⟨bs, hthere, hback⟩ := RoundTrips.list h
  cases as with
  | nil => exact ⟨none, rfl, rfl⟩
  | cons a as =>
      refine ⟨some bs, ?_, hback⟩
      have hmap : (a :: as).map there ≠ [] := by simp
      simp only [collectNonempty, if_neg hmap, hthere, transpose]

theorem RoundTrips.optionalList_self {there : α → Except ε β} {back : β → Except ε α}
    {o : Option (List α)} (h : ∀ a ∈ o.getD [], RoundTrips there back a a) :
    ∃ shown, collect ((o.getD []).map there) = .ok shown ∧
      collectNonempty (shown.map back) = .ok (absentIfEmpty o) := by
  have hid := @RoundTrips.optionalList _ _ _ _ there back id o h
  rwa [List.map_id_fun, Option.map_id] at hid

theorem RoundTrips.storedList_self {there : α → Except ε β} {back : β → Except ε α} {as : List α}
    (h : ∀ a ∈ as, RoundTrips there back a a) :
    ∃ shown, collectNonempty (as.map there) = .ok shown ∧
      collect ((shown.getD []).map back) = .ok as := by
  have hid := @RoundTrips.storedList _ _ _ _ there back id as h
  rwa [List.map_id] at hid

end AbixioUi.Foundation
