import Mathlib.Data.List.Nodup
import AbixioUi.Foundation.Runs

/-! # Lists that are edited by position

A row keeps its number through every edit, while its position changes when a row before
it is taken out. A position that was noted down for a row stays the position of that row
exactly as long as no row at it or before it is taken out.
-/

namespace AbixioUi.Foundation

universe u v

/-! ## Runs that cannot come back -/

section Lost

variable {σ : Type u} {ε : Type v} {step : σ → ε → σ} {ok : σ → ε → Prop}

/-- Where a property is lost for good by the steps that fail the condition, it holds at
the end of a run exactly if no step fails it. -/
theorem run_iff_along_of_lost (P Lost : σ → Prop)
    (hkept : ∀ s e, P s → ok s e → P (step s e))
    (hlost : ∀ s e, P s → ¬ ok s e → Lost (step s e))
    (hstays : ∀ s e, Lost s → Lost (step s e)) (hnot : ∀ s, Lost s → ¬ P s)
    {s : σ} (h : P s) (es : List ε) : P (run step s es) ↔ Along step ok s es := by
  induction es generalizing s with
  | nil => exact iff_of_true h trivial
  | cons e es ih =>
      by_cases hok : ok s e
      · rw [run_cons, ih (hkept s e h hok)]
        exact ⟨fun hrest => ⟨hok, hrest⟩, fun hall => hall.2⟩
      · have hend : Lost (run step s (e :: es)) := by
          rw [run_cons]
          exact run_invariant Lost (fun s e hs _ => hstays s e hs) (hlost s e h hok)
            (along_true _ es)
        exact iff_of_false (hnot _ hend) fun hall => hok hall.1

end Lost

/-! ## Rows -/

/-- The values of a list, and the number of each row. -/
structure Rows (α : Type u) where
  values : List α
  numbers : List Nat
  next : Nat
  length_eq : numbers.length = values.length
  nodup : numbers.Nodup
  fresh : ∀ number ∈ numbers, number < next

/-- A row is added at the end, is taken out, or gets another value. -/
inductive RowEdit (α : Type u)
  | push (value : α)
  | remove (index : Nat)
  | set (index : Nat) (value : α)

namespace Rows

variable {α : Type u}

/-- Rows numbered from the front. -/
def ofList (values : List α) : Rows α where
  values := values
  numbers := List.range values.length
  next := values.length
  length_eq := List.length_range
  nodup := List.nodup_range
  fresh := fun _ hnumber => List.mem_range.mp hnumber

def push (table : Rows α) (value : α) : Rows α where
  values := table.values ++ [value]
  numbers := table.numbers ++ [table.next]
  next := table.next + 1
  length_eq := by simp [table.length_eq]
  nodup := by
    refine List.nodup_append.mpr ⟨table.nodup, by simp, ?_⟩
    intro number hnumber other hother
    have hlt := table.fresh number hnumber
    rw [List.mem_singleton.mp hother]
    omega
  fresh := by
    intro number hnumber
    rcases List.mem_append.mp hnumber with hheld | hnew
    · have hlt := table.fresh number hheld
      omega
    · rw [List.mem_singleton.mp hnew]
      omega

def remove (table : Rows α) (index : Nat) : Rows α where
  values := table.values.eraseIdx index
  numbers := table.numbers.eraseIdx index
  next := table.next
  length_eq := by simp only [List.length_eraseIdx, table.length_eq]
  nodup := table.nodup.sublist (List.eraseIdx_sublist _ _)
  fresh := fun number hnumber => table.fresh number (List.mem_of_mem_eraseIdx hnumber)

def set (table : Rows α) (index : Nat) (value : α) : Rows α :=
  { table with
    values := table.values.set index value
    length_eq := by rw [List.length_set, table.length_eq] }

def edit (table : Rows α) : RowEdit α → Rows α
  | .push value => table.push value
  | .remove index => table.remove index
  | .set index value => table.set index value

/-- The row at a position, by its number. -/
def rowAt (table : Rows α) (index : Nat) : Option Nat := table.numbers[index]?

/-- The value of a row. -/
def valueOf (table : Rows α) (row : Nat) : Option α := table.values[table.numbers.idxOf row]?

/-- The edit takes out no row at the position or before it. -/
def Keeps (index : Nat) (table : Rows α) (edit : RowEdit α) : Prop :=
  ∀ removed, edit = .remove removed → removed < table.values.length → index < removed

/-! ## A row and its position -/

/-- The row is before the position, or not there any more. -/
structure Before (row index : Nat) (table : Rows α) : Prop where
  old : row < table.next
  lt : ∀ position, table.rowAt position = some row → position < index

section Positions

variable {table : Rows α} {row index : Nat}

theorem lt_next_of_rowAt (h : table.rowAt index = some row) : row < table.next :=
  table.fresh row (List.mem_of_getElem? h)

theorem rowAt_unique {position : Nat} (h : table.rowAt index = some row)
    (h' : table.rowAt position = some row) : position = index := by
  have hbound : position < table.numbers.length := (List.getElem?_eq_some_iff.mp h').1
  exact (List.getElem?_inj hbound table.nodup).mp (h'.trans h.symm)

theorem rowAt_remove (removed position : Nat) :
    (table.remove removed).rowAt position =
      if position < removed then table.rowAt position else table.rowAt (position + 1) :=
  List.getElem?_eraseIdx

/-- An edit that keeps the rows up to a position keeps the row there. -/
theorem rowAt_edit {edit : RowEdit α} (h : table.rowAt index = some row)
    (hkeeps : Keeps index table edit) : (table.edit edit).rowAt index = some row := by
  cases edit with
  | push value =>
      have hbound : index < table.numbers.length := (List.getElem?_eq_some_iff.mp h).1
      exact (List.getElem?_append_left hbound).trans h
  | remove removed =>
      show (table.remove removed).rowAt index = some row
      rw [rowAt_remove]
      by_cases hremoved : removed < table.values.length
      · rw [if_pos (hkeeps removed rfl hremoved)]
        exact h
      · have hbound : index < table.numbers.length := (List.getElem?_eq_some_iff.mp h).1
        have hlength := table.length_eq
        rw [if_pos (by omega)]
        exact h
  | set position value => exact h

/-- An edit that takes out the row or one before it leaves the row before its position. -/
theorem before_of_not_keeps {edit : RowEdit α} (h : table.rowAt index = some row)
    (hnot : ¬ Keeps index table edit) : Before row index (table.edit edit) := by
  unfold Keeps at hnot
  push Not at hnot
  obtain ⟨removed, rfl, -, hle⟩ := hnot
  have hold : row < table.next := lt_next_of_rowAt h
  refine ⟨hold, fun position hposition => ?_⟩
  have hshifted : (table.remove removed).rowAt position = some row := hposition
  rw [rowAt_remove] at hshifted
  split at hshifted
  next hlt => omega
  next =>
    have hindex := rowAt_unique h hshifted
    omega

/-- A row before a position does not come back to it. -/
theorem Before.edit (h : Before row index table) (edit : RowEdit α) :
    Before row index (table.edit edit) := by
  cases edit with
  | push value =>
      refine ⟨Nat.lt_succ_of_lt h.old, fun position hposition => ?_⟩
      have happend : (table.numbers ++ [table.next])[position]? = some row := hposition
      rw [List.getElem?_append] at happend
      split at happend
      next => exact h.lt position happend
      next =>
        -- the row that is added has a number that no row had
        have hnew := List.mem_singleton.mp (List.mem_of_getElem? happend)
        have hold := h.old
        omega
  | remove removed =>
      refine ⟨h.old, fun position hposition => ?_⟩
      have hshifted : (table.remove removed).rowAt position = some row := hposition
      rw [rowAt_remove] at hshifted
      split at hshifted
      next => exact h.lt position hshifted
      next =>
        have hlt := h.lt (position + 1) hshifted
        omega
  | set position value => exact ⟨h.old, h.lt⟩

/-! ## Values -/

/-- Behind the last row there is nothing to set. -/
theorem set_of_length_le (h : table.values.length ≤ index) (value : α) :
    table.set index value = table := by
  cases table
  simp only [set, List.set_eq_of_length_le h]

theorem idxOf_of_rowAt (h : table.rowAt index = some row) : table.numbers.idxOf row = index :=
  rowAt_unique h (List.getElem?_idxOf (List.mem_of_getElem? h))

/-- A new value at a position is one of the row there, and of no other row. -/
theorem valueOf_set (value : α) :
    (table.set index value).valueOf row =
      if table.rowAt index = some row then some value else table.valueOf row := by
  show (table.values.set index value)[table.numbers.idxOf row]? = _
  rw [List.getElem?_set]
  by_cases hrow : table.rowAt index = some row
  · have hbound : index < table.numbers.length := (List.getElem?_eq_some_iff.mp hrow).1
    rw [if_pos hrow, idxOf_of_rowAt hrow, if_pos rfl, if_pos (table.length_eq ▸ hbound)]
  · rw [if_neg hrow]
    split
    next hindex =>
      -- the position is that of a row that is not there
      have habsent : row ∉ table.numbers := by
        intro hmem
        apply hrow
        rw [hindex]
        exact List.getElem?_idxOf hmem
      have hlength := List.idxOf_eq_length_iff.mpr habsent
      have hsame := table.length_eq
      unfold valueOf
      rw [if_neg (by omega), List.getElem?_eq_none (by omega)]
    next => rfl

/-- Whatever is set at a position becomes the value of one row alone exactly if the row
is at the position. -/
theorem forall_valueOf_set_iff {value value' : α} (hne : value ≠ value') :
    (∀ (value : α) (other : Nat), (table.set index value).valueOf other =
        if other = row then some value else table.valueOf other) ↔
      table.rowAt index = some row := by
  constructor
  · intro hset
    by_contra hrow
    have hvalue : ∀ value, table.valueOf row = some value := by
      intro value
      have hown := hset value row
      rw [valueOf_set, if_neg hrow, if_pos rfl] at hown
      exact hown
    exact hne (Option.some.inj ((hvalue value).symm.trans (hvalue value')))
  · intro hrow value other
    rw [valueOf_set, hrow]
    by_cases hother : other = row
    · rw [if_pos (by rw [hother]), if_pos hother]
    · rw [if_neg fun heq => hother (Option.some.inj heq).symm, if_neg hother]

end Positions

end Rows

end AbixioUi.Foundation
