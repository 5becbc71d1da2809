import Mathlib.Data.List.Nodup
import Mathlib.Data.List.Perm.Basic

/-! # Keyed stores and batches of writes

A store maps keys to contents. A batch copies contents to keys and removes keys.
When no two operations of a batch have one target, and no copy reads a target of
the batch, the outcome at every key is settled by the batch as a set, so every
order of execution agrees.
-/

namespace AbixioUi.Foundation

universe u v

abbrev Store (κ : Type u) (ν : Type v) := κ → Option ν

inductive StoreOp (κ : Type u)
  | copy (source target : κ)
  | remove (target : κ)
deriving DecidableEq, Repr

namespace StoreOp

variable {κ : Type u} {ν : Type v} [DecidableEq κ]

def target : StoreOp κ → κ
  | .copy _ target => target
  | .remove target => target

/-- What the operation leaves at its target. -/
def outcome (store : Store κ ν) : StoreOp κ → Option ν
  | .copy source _ => store source
  | .remove _ => none

def apply (store : Store κ ν) (op : StoreOp κ) : Store κ ν :=
  Function.update store op.target (op.outcome store)

def applyAll (store : Store κ ν) (ops : List (StoreOp κ)) : Store κ ν := ops.foldl apply store

/-- The operation reads one of the keys. -/
def Reads (keys : List κ) : StoreOp κ → Prop
  | .copy source _ => source ∈ keys
  | .remove _ => False

@[simp] theorem applyAll_cons (store : Store κ ν) (op : StoreOp κ) (ops : List (StoreOp κ)) :
    applyAll store (op :: ops) = applyAll (apply store op) ops := rfl

/-- A key that is no target keeps its content. -/
theorem applyAll_of_not_target {ops : List (StoreOp κ)} {key : κ} (h : key ∉ ops.map target)
    (store : Store κ ν) : applyAll store ops key = store key := by
  induction ops generalizing store with
  | nil => rfl
  | cons op ops ih =>
      simp only [List.map_cons, List.mem_cons, not_or] at h
      rw [applyAll_cons, ih h.2, apply, Function.update_of_ne h.1]

theorem outcome_apply {ops : List (StoreOp κ)} {op other : StoreOp κ}
    (h : ¬ Reads (ops.map target) other) (hop : op ∈ ops) (store : Store κ ν) :
    other.outcome (apply store op) = other.outcome store := by
  cases other with
  | copy source target =>
      have hne : source ≠ op.target := fun e => h (e ▸ List.mem_map_of_mem hop)
      exact Function.update_of_ne hne _ _
  | remove target => rfl

/-- A target holds what its operation leaves there, whatever ran before it. -/
theorem applyAll_of_mem {ops : List (StoreOp κ)} (hnodup : (ops.map target).Nodup)
    (hreads : ∀ op ∈ ops, ¬ Reads (ops.map target) op) {op : StoreOp κ} (hop : op ∈ ops)
    (store : Store κ ν) : applyAll store ops op.target = op.outcome store := by
  induction ops generalizing store with
  | nil => simp at hop
  | cons first ops ih =>
      obtain ⟨hfirst, hrest⟩ := List.nodup_cons.mp hnodup
      rw [applyAll_cons]
      rcases List.mem_cons.mp hop with rfl | hmem
      · rw [applyAll_of_not_target hfirst, apply, Function.update_self]
      · have hreads' : ∀ other ∈ ops, ¬ Reads (ops.map target) other := by
          intro other hother hread
          refine hreads other (List.mem_cons_of_mem _ hother) ?_
          cases other with
          | copy source target => exact List.mem_cons_of_mem _ hread
          | remove target => exact hread
        rw [ih hrest hreads' hmem, outcome_apply (hreads op hop) List.mem_cons_self]

end StoreOp

end AbixioUi.Foundation
