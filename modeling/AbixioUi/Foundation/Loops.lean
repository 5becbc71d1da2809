import Mathlib.Data.Nat.Init

/-! # Loops with fuel

Two kinds of loop: calls repeated until one gives nothing, and a body that goes on with
a state or leaves with a result. Both are run with fuel. What uses up a measure ends with
any larger fuel, and a body that always goes on ends with none.
-/

namespace AbixioUi.Foundation

universe u v

variable {σ : Type u}

/-! ## Repeated calls -/

section

variable {β : Type v} {next : σ → Option (β × σ)}

/-- The results of a call that is repeated until it gives none; `none` out of fuel. -/
def repeated (next : σ → Option (β × σ)) : Nat → σ → Option (List β)
  | 0, _ => none
  | fuel + 1, s =>
      match next s with
      | none => some []
      | some (result, s') => (repeated next fuel s').map (result :: ·)

theorem repeated_none {s : σ} (h : next s = none) (fuel : Nat) :
    repeated next (fuel + 1) s = some [] := by
  simp only [repeated, h]

theorem repeated_some {s s' : σ} {result : β} (h : next s = some (result, s')) (fuel : Nat) :
    repeated next (fuel + 1) s = (repeated next fuel s').map (result :: ·) := by
  simp only [repeated, h]

/-- Calls that use up a measure end, with results that are as each call extends them. -/
theorem repeated_ends (measure : σ → Nat) (Spec : σ → List β → Prop)
    (hnone : ∀ s, next s = none → Spec s [])
    (hsome : ∀ s result s', next s = some (result, s') →
      measure s' < measure s ∧ ∀ results, Spec s' results → Spec s (result :: results))
    (s : σ) :
    ∃ results, (∀ fuel, measure s < fuel → repeated next fuel s = some results) ∧
      Spec s results := by
  induction hm : measure s using Nat.strongRecOn generalizing s with
  | ind m ih =>
      cases hnext : next s with
      | none =>
          refine ⟨[], fun fuel hfuel => ?_, hnone s hnext⟩
          obtain ⟨fuel, rfl⟩ := Nat.exists_eq_add_of_lt hfuel
          exact repeated_none hnext _
      | some pulled =>
          obtain ⟨result, s'⟩ := pulled
          obtain ⟨hless, hspec⟩ := hsome s result s' hnext
          obtain ⟨results, hends, hresults⟩ := ih (measure s') (by omega) s' rfl
          refine ⟨result :: results, fun fuel hfuel => ?_, hspec results hresults⟩
          obtain ⟨fuel, rfl⟩ := Nat.exists_eq_add_of_lt hfuel
          rw [repeated_some hnext, hends _ (by omega)]
          rfl

end

/-! ## Loops -/

section

variable {ρ : Type v} {body : σ → σ ⊕ ρ}

/-- A loop whose body goes on with a state or leaves with a result; `none` out of fuel. -/
def loop (body : σ → σ ⊕ ρ) : Nat → σ → Option ρ
  | 0, _ => none
  | fuel + 1, s =>
      match body s with
      | .inl s' => loop body fuel s'
      | .inr result => some result

theorem loop_go {s s' : σ} (h : body s = .inl s') (fuel : Nat) :
    loop body (fuel + 1) s = loop body fuel s' := by
  simp only [loop, h]

theorem loop_leave {s : σ} {result : ρ} (h : body s = .inr result) (fuel : Nat) :
    loop body (fuel + 1) s = some result := by
  simp only [loop, h]

/-- Rounds that keep the invariant at smaller and smaller variants end, with a result
that is as the last round leaves it. -/
theorem loop_ends (Inv : Nat → σ → Prop) (Post : ρ → Prop)
    (hgo : ∀ m s s', Inv m s → body s = .inl s' → ∃ m' < m, Inv m' s')
    (hleave : ∀ m s result, Inv m s → body s = .inr result → Post result)
    {m : Nat} {s : σ} (h : Inv m s) :
    ∃ result, (∀ fuel, m < fuel → loop body fuel s = some result) ∧ Post result := by
  induction m using Nat.strongRecOn generalizing s with
  | ind m ih =>
      cases hbody : body s with
      | inr result =>
          refine ⟨result, fun fuel hfuel => ?_, hleave m s result h hbody⟩
          obtain ⟨fuel, rfl⟩ := Nat.exists_eq_add_of_lt hfuel
          exact loop_leave hbody _
      | inl s' =>
          obtain ⟨m', hless, hinv⟩ := hgo m s s' h hbody
          obtain ⟨result, hends, hpost⟩ := ih m' hless hinv
          refine ⟨result, fun fuel hfuel => ?_, hpost⟩
          obtain ⟨fuel, rfl⟩ := Nat.exists_eq_add_of_lt hfuel
          rw [loop_go hbody]
          exact hends _ (by omega)

/-- Where every round goes on no fuel is enough. -/
theorem loop_diverges (Inv : σ → Prop) (hgo : ∀ s, Inv s → ∃ s', body s = .inl s' ∧ Inv s')
    {s : σ} (h : Inv s) (fuel : Nat) : loop body fuel s = none := by
  induction fuel generalizing s with
  | zero => rfl
  | succ fuel ih =>
      obtain ⟨s', hbody, hinv⟩ := hgo s h
      rw [loop_go hbody]
      exact ih hinv

end

end AbixioUi.Foundation
