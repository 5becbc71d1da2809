import AbixioUi.Foundation.Store
import Mathlib.Data.List.Perm.Subperm

/-! # Operations that tasks carry out

Every task stands for operations on a store. They take effect one at a time, in any
order within a task and among the tasks, and a task may end before all of its own have.
Every operation handed out is then done, still held or given up. If no two operations
have one target and none reads a target, a key shows at any moment what was there at
first or what its own operation leaves there.
-/

namespace AbixioUi.Foundation

universe u v w

variable {κ : Type u} {ν : Type v} {τ : Type w}

/-! ## Independent operations -/

/-- No two operations have one target, and no operation reads a target. -/
structure StoreOp.Independent (ops : List (StoreOp κ)) : Prop where
  nodup : (ops.map StoreOp.target).Nodup
  apart : ∀ op ∈ ops, ¬ StoreOp.Reads (ops.map StoreOp.target) op

theorem StoreOp.Reads.mono {keys keys' : List κ} {op : StoreOp κ} (h : StoreOp.Reads keys op)
    (hsub : keys ⊆ keys') : StoreOp.Reads keys' op := by
  cases op with
  | copy source target => exact hsub h
  | remove target => exact h

/-- Some of the operations of an independent batch are independent. -/
theorem StoreOp.Independent.subperm {ops all : List (StoreOp κ)} (h : StoreOp.Independent all)
    (hsub : ops.Subperm all) : StoreOp.Independent ops := by
  have htargets : (ops.map StoreOp.target).Subperm (all.map StoreOp.target) := by
    obtain ⟨sub, hperm, hsublist⟩ := hsub
    exact ⟨sub.map StoreOp.target, hperm.map _, hsublist.map _⟩
  constructor
  · obtain ⟨sub, hperm, hsublist⟩ := htargets
    exact hperm.nodup_iff.mp (h.nodup.sublist hsublist)
  · intro op hop hread
    exact h.apart op (hsub.subset hop) (hread.mono htargets.subset)

/-! ## Workloads -/

/-- A store, the operations that have taken effect on it in this order, the tasks with
what each still holds, and the operations given up. -/
structure Workload (τ : Type w) (κ : Type u) (ν : Type v) where
  store : Store κ ν
  done : List (StoreOp κ)
  held : List (τ × List (StoreOp κ))
  lost : List (StoreOp κ)

namespace Workload

def assign (operations : τ → List (StoreOp κ)) (work : Workload τ κ ν) (tasks : List τ) :
    Workload τ κ ν :=
  { work with held := work.held ++ tasks.map fun task => (task, operations task) }

def start (operations : τ → List (StoreOp κ)) (store : Store κ ν) (tasks : List τ) :
    Workload τ κ ν :=
  assign operations ⟨store, [], [], []⟩ tasks

/-- Operation `n` of task `i` takes effect. -/
def carryOut [DecidableEq κ] (work : Workload τ κ ν) (i n : Nat) : Workload τ κ ν :=
  match work.held[i]? with
  | none => work
  | some (task, ops) =>
      match ops[n]? with
      | none => work
      | some op =>
          { work with
            store := op.apply work.store
            done := work.done ++ [op]
            held := work.held.set i (task, ops.eraseIdx n) }

/-- Task `i` ends and gives up what it holds. -/
def finish (work : Workload τ κ ν) (i : Nat) : Workload τ κ ν :=
  { work with
    held := work.held.eraseIdx i
    lost := work.lost ++ ((work.held[i]?).map (·.2)).getD [] }

/-- Only the store, the operations done and what one task holds change. -/
theorem carryOut_frame [DecidableEq κ] (work : Workload τ κ ν) (i n : Nat) :
    (work.carryOut i n).held.map (·.1) = work.held.map (·.1) ∧
      (work.carryOut i n).lost = work.lost := by
  unfold Workload.carryOut
  cases hi : work.held[i]? with
  | none => exact ⟨rfl, rfl⟩
  | some entry =>
      cases hn : entry.2[n]? with
      | none => simp only [hn, and_self]
      | some op =>
          simp only [hn, and_true]
          have hsame : (work.held.map (·.1))[i]? = some entry.1 := by
            rw [List.getElem?_map, hi]
            rfl
          have hlt := (List.getElem?_eq_some_iff.mp hsame).1
          have hentry := (List.getElem?_eq_some_iff.mp hsame).2
          rw [List.map_set]
          show (work.held.map (·.1)).set i entry.1 = work.held.map (·.1)
          rw [← hentry, List.set_getElem_self]

/-- The operations of the tasks handed out are done, held or given up. -/
structure Accounts [DecidableEq κ] (operations : τ → List (StoreOp κ)) (before : Store κ ν)
    (issued : List τ) (work : Workload τ κ ν) : Prop where
  store_eq : work.store = StoreOp.applyAll before work.done
  perm : (work.done ++ (work.held.flatMap (·.2) ++ work.lost)).Perm (issued.flatMap operations)
  within : ∀ entry ∈ work.held, entry.1 ∈ issued ∧ entry.2 ⊆ operations entry.1

theorem flatMap_assigned (operations : τ → List (StoreOp κ)) (tasks : List τ) :
    (tasks.map fun task => (task, operations task)).flatMap (·.2) =
      tasks.flatMap operations := by
  rw [List.flatMap_map]

/-- What task `i` holds can be counted first. -/
theorem flatMap_perm_of_getElem? {held : List (τ × List (StoreOp κ))} {i : Nat}
    {entry : τ × List (StoreOp κ)} (h : held[i]? = some entry) :
    (held.flatMap (·.2)).Perm (entry.2 ++ (held.eraseIdx i).flatMap (·.2)) := by
  have hi := (List.getElem?_eq_some_iff.mp h).1
  have hget := (List.getElem?_eq_some_iff.mp h).2
  have hperm := (List.getElem_cons_eraseIdx_perm hi).flatMap_right (·.2)
  rw [hget, List.flatMap_cons] at hperm
  exact hperm.symm

variable [DecidableEq κ] {operations : τ → List (StoreOp κ)} {before : Store κ ν}
  {issued : List τ} {work : Workload τ κ ν}

theorem Accounts.assign (h : Accounts operations before issued work) (tasks : List τ) :
    Accounts operations before (issued ++ tasks) (work.assign operations tasks) := by
  refine ⟨h.store_eq, ?_, ?_⟩
  · rw [List.flatMap_append]
    refine List.Perm.trans ?_ (h.perm.append_right _)
    show (work.done ++ ((work.held ++ tasks.map fun task =>
      (task, operations task)).flatMap (·.2) ++ work.lost)).Perm _
    rw [List.flatMap_append, flatMap_assigned, List.append_assoc, List.append_assoc,
      List.append_assoc]
    exact (List.perm_append_comm.append_left _).append_left _
  · intro entry hentry
    rcases List.mem_append.mp hentry with hold | hnew
    · have hwithin := h.within entry hold
      exact ⟨List.mem_append_left _ hwithin.1, hwithin.2⟩
    · obtain ⟨task, htask, rfl⟩ := List.mem_map.mp hnew
      exact ⟨List.mem_append_right _ htask, List.Subset.refl _⟩

theorem start_accounts (store : Store κ ν) (tasks : List τ) :
    Accounts operations store tasks (start operations store tasks) := by
  have hnone : Accounts operations store [] (⟨store, [], [], []⟩ : Workload τ κ ν) :=
    ⟨rfl, List.Perm.refl _, by simp⟩
  exact hnone.assign tasks

theorem Accounts.carryOut (h : Accounts operations before issued work) (i n : Nat) :
    Accounts operations before issued (work.carryOut i n) := by
  unfold Workload.carryOut
  cases hi : work.held[i]? with
  | none => exact h
  | some entry =>
      have hentry : entry ∈ work.held := List.mem_of_getElem? hi
      cases hn : entry.2[n]? with
      | none => simpa only [hn] using h
      | some op =>
          simp only [hn]
          have hlt := (List.getElem?_eq_some_iff.mp hn).1
          have hget := (List.getElem?_eq_some_iff.mp hn).2
          have hop : (op :: entry.2.eraseIdx n).Perm entry.2 := by
            have hperm := List.getElem_cons_eraseIdx_perm hlt
            rwa [hget] at hperm
          have hbefore := flatMap_perm_of_getElem? hi
          have hset : (work.held.set i (entry.1, entry.2.eraseIdx n))[i]? =
              some (entry.1, entry.2.eraseIdx n) := by
            have hbound := (List.getElem?_eq_some_iff.mp hi).1
            simp [hbound]
          have hafter := flatMap_perm_of_getElem? hset
          rw [List.eraseIdx_set_eq] at hafter
          refine ⟨?_, ?_, ?_⟩
          · show op.apply work.store = StoreOp.applyAll before (work.done ++ [op])
            rw [h.store_eq]
            simp [StoreOp.applyAll]
          · refine List.Perm.trans ?_ h.perm
            show (work.done ++ [op] ++ ((work.held.set i
              (entry.1, entry.2.eraseIdx n)).flatMap (·.2) ++ work.lost)).Perm _
            rw [List.append_assoc]
            refine List.Perm.append_left _ ?_
            rw [← List.append_assoc]
            refine List.Perm.append_right _ ?_
            have hmoved : (op :: entry.2.eraseIdx n ++
                (work.held.eraseIdx i).flatMap (·.2)).Perm (work.held.flatMap (·.2)) :=
              (hop.append_right _).trans hbefore.symm
            exact (hafter.cons op).trans hmoved
          · intro other hother
            rcases List.mem_or_eq_of_mem_set hother with hold | rfl
            · exact h.within other hold
            · have hwithin := h.within entry hentry
              exact ⟨hwithin.1, fun x hx => hwithin.2 (List.mem_of_mem_eraseIdx hx)⟩

theorem Accounts.finish (h : Accounts operations before issued work) (i : Nat) :
    Accounts operations before issued (work.finish i) := by
  refine ⟨h.store_eq, ?_, ?_⟩
  · refine List.Perm.trans (List.Perm.append_left _ ?_) h.perm
    show ((work.held.eraseIdx i).flatMap (·.2) ++
      (work.lost ++ ((work.held[i]?).map (·.2)).getD [])).Perm _
    cases hi : work.held[i]? with
    | none =>
        have hle : work.held.length ≤ i := List.getElem?_eq_none_iff.mp hi
        rw [List.eraseIdx_of_length_le hle]
        simp
    | some entry =>
        have hperm := (flatMap_perm_of_getElem? hi).append_right work.lost
        refine List.Perm.trans ?_ hperm.symm
        show ((work.held.eraseIdx i).flatMap (·.2) ++ (work.lost ++ entry.2)).Perm _
        rw [← List.append_assoc]
        refine List.perm_append_comm.trans ?_
        rw [List.append_assoc]
  · intro entry hentry
    exact h.within entry (List.mem_of_mem_eraseIdx hentry)

/-! ## What the store shows -/

/-- What has been done was handed out. -/
theorem Accounts.done_subperm (h : Accounts operations before issued work) :
    work.done.Subperm (issued.flatMap operations) :=
  (List.sublist_append_left _ _).subperm.trans h.perm.subperm

/-- A key that no operation done has for a target is as it was. -/
theorem Accounts.untouched (h : Accounts operations before issued work) {key : κ}
    (hkey : ∀ op ∈ work.done, op.target ≠ key) : work.store key = before key := by
  rw [h.store_eq]
  refine StoreOp.applyAll_of_not_target ?_ before
  intro hmem
  obtain ⟨op, hop, htarget⟩ := List.mem_map.mp hmem
  exact hkey op hop htarget

/-- The target of an operation done shows what that operation leaves there. -/
theorem Accounts.landed (h : Accounts operations before issued work) {all : List (StoreOp κ)}
    (hindependent : StoreOp.Independent all) (hall : (issued.flatMap operations).Subperm all)
    {op : StoreOp κ} (hop : op ∈ work.done) : work.store op.target = op.outcome before := by
  have hdone := hindependent.subperm (h.done_subperm.trans hall)
  rw [h.store_eq]
  exact StoreOp.applyAll_of_mem hdone.nodup hdone.apart hop before

/-- Each target of the batch is as it was, or its operation is done and shows there. -/
theorem Accounts.target_cases (h : Accounts operations before issued work)
    {all : List (StoreOp κ)} (hindependent : StoreOp.Independent all)
    (hall : (issued.flatMap operations).Subperm all) {op : StoreOp κ} (hop : op ∈ all) :
    work.store op.target = before op.target ∨
      op ∈ work.done ∧ work.store op.target = op.outcome before := by
  by_cases hdone : op ∈ work.done
  · exact .inr ⟨hdone, h.landed hindependent hall hdone⟩
  · refine .inl (h.untouched ?_)
    intro other hother htarget
    have hmem : other ∈ all := (h.done_subperm.trans hall).subset hother
    have hsame : other = op := List.inj_on_of_nodup_map hindependent.nodup hmem hop htarget
    exact hdone (hsame ▸ hother)

/-- When no task is left and nothing was given up, everything handed out is done. -/
theorem Accounts.settled (h : Accounts operations before issued work) (hheld : work.held = [])
    (hlost : work.lost = []) : work.done.Perm (issued.flatMap operations) := by
  have hperm := h.perm
  rw [hheld, hlost] at hperm
  simpa using hperm

/-- An operation handed out that no task holds and none gave up is done. -/
theorem Accounts.mem_done (h : Accounts operations before issued work) {op : StoreOp κ}
    (hop : op ∈ issued.flatMap operations)
    (hheld : ∀ entry ∈ work.held, op ∉ operations entry.1) (hlost : op ∉ work.lost) :
    op ∈ work.done := by
  rcases List.mem_append.mp (h.perm.mem_iff.mpr hop) with hdone | hrest
  · exact hdone
  · rcases List.mem_append.mp hrest with hmem | hmem
    · obtain ⟨entry, hentry, hin⟩ := List.mem_flatMap.mp hmem
      exact absurd ((h.within entry hentry).2 hin) (hheld entry hentry)
    · exact absurd hmem hlost

end Workload

end AbixioUi.Foundation
