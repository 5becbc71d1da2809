import AbixioUi.Foundation.Runs
import Mathlib.Data.List.Basic

/-! # Answers that are awaited

A machine starts tasks and waits for what they answer. Nothing waits in vain where every
answer that is awaited is one of a task in flight, and where a task that ends leaves
its wait over or starts another one that is nearer to its end.
-/

namespace AbixioUi.Foundation

universe u v

/-! ## Covered waits -/

section Covered

variable {τ : Type u}

/-- What is awaited is the answer of a task in flight. -/
def Covered (answers : τ → Prop) (awaits : Prop) (inFlight : List τ) : Prop :=
  awaits → ∃ task ∈ inFlight, answers task

variable {answers : τ → Prop} {before after : Prop} {inFlight started : List τ}

/-- Where no task ends, a wait that goes on or has its answer started stays covered. -/
theorem Covered.start (h : Covered answers before inFlight)
    (hon : after → before ∨ ∃ task ∈ started, answers task) :
    Covered answers after (inFlight ++ started) := by
  intro hafter
  rcases hon hafter with hold | ⟨task, htask, hanswers⟩
  · obtain ⟨task, htask, hanswers⟩ := h hold
    exact ⟨task, List.mem_append_left started htask, hanswers⟩
  · exact ⟨task, List.mem_append_right inFlight htask, hanswers⟩

/-- A task that ends may be the one that covered the wait. -/
theorem Covered.finish {index : Nat} {ended : τ} (h : Covered answers before inFlight)
    (hat : inFlight[index]? = some ended)
    (hon : after → before ∨ ∃ task ∈ started, answers task)
    (hended : answers ended → after → ∃ task ∈ started, answers task) :
    Covered answers after (inFlight.eraseIdx index ++ started) := by
  by_cases hanswered : answers ended
  · intro hafter
    obtain ⟨task, htask, hanswers⟩ := hended hanswered hafter
    exact ⟨task, List.mem_append_right _ htask, hanswers⟩
  · refine Covered.start ?_ hon
    intro hbefore
    obtain ⟨task, htask, hanswers⟩ := h hbefore
    obtain ⟨place, hplace⟩ := List.mem_iff_getElem?.mp htask
    have hother : place ≠ index := by
      intro heq
      rw [heq, hat] at hplace
      exact hanswered (Option.some.inj hplace ▸ hanswers)
    exact ⟨task, List.mem_eraseIdx_iff_getElem?.mpr ⟨place, hother, hplace⟩, hanswers⟩

end Covered

/-! ## Waits that end -/

section Settles

variable {σ : Type u} {ρ : Type v}

/-- Some order of delivering the answers that are open reaches the goal, whichever of the
replies that `deliver` allows they are. A reply that it does not allow is none that the
task comes back with. -/
inductive Settles (deliver : σ → Nat → ρ → Option σ) (goal : σ → Prop) : σ → Prop
  | done {s : σ} (h : goal s) : Settles deliver goal s
  | next {s : σ} (index : Nat) (hopen : ∃ reply, (deliver s index reply).isSome = true)
      (h : ∀ reply s', deliver s index reply = some s' → Settles deliver goal s') :
      Settles deliver goal s

variable {deliver : σ → Nat → ρ → Option σ} {goal : σ → Prop}

/-- The goal is reached where an answer can always be chosen that brings it nearer. -/
theorem settles_of_nearer (near : Nat → σ → Prop)
    (hnear : ∀ n s, near n s → ¬ goal s → ∃ index,
      (∃ reply, (deliver s index reply).isSome = true) ∧
        ∀ reply s', deliver s index reply = some s' → ∃ m, m < n ∧ near m s')
    {n : Nat} {s : σ} (h : near n s) : Settles deliver goal s := by
  induction n using Nat.strongRecOn generalizing s with
  | _ n ih =>
    by_cases hgoal : goal s
    · exact .done hgoal
    · obtain ⟨index, hopen, hnext⟩ := hnear n s h hgoal
      refine .next index hopen fun reply s' hs' => ?_
      obtain ⟨m, hm, hnear'⟩ := hnext reply s' hs'
      exact ih m hm hnear'

end Settles

end AbixioUi.Foundation
