/-! # Requests that may fail

A program sends requests to a store and stops at the first error. A request is
carried out, refused, or carried out without its answer arriving. The session
keeps the store and the journal of the requests with the answers they got.
`Ends` is the weakest precondition of a program; its rules follow the program text.
-/

namespace AbixioUi.Foundation

universe u v

/-- What becomes of one request. -/
inductive Verdict
  | served
  | refused (error : String)
  | lost (error : String)
deriving DecidableEq, Repr

/-- The store, and the requests so far, each with whether it was answered by success. -/
structure Session (ρ : Type u) (σ : Type v) where
  store : σ
  journal : List (ρ × Bool)

def Session.start {ρ : Type u} {σ : Type v} (store : σ) : Session ρ σ := ⟨store, []⟩

def Session.record {ρ : Type u} {σ : Type v} (session : Session ρ σ) (store : σ) (request : ρ)
    (answered : Bool) : Session ρ σ :=
  ⟨store, session.journal ++ [(request, answered)]⟩

/-- A program over requests `ρ` to a store `σ`. -/
def Requests (ρ : Type u) (σ : Type v) (α : Type) : Type (max u v) :=
  Session ρ σ → Except String α × Session ρ σ

namespace Requests

variable {ρ : Type u} {σ : Type v} {α β : Type}

instance : Monad (Requests ρ σ) where
  pure a session := (.ok a, session)
  bind program next session :=
    match program session with
    | (.ok a, after) => next a after
    | (.error error, after) => (.error error, after)

def fail (error : String) : Requests ρ σ α := fun session => (.error error, session)

/-- Sends a request whose effect the receiver decides. -/
def send (request : ρ) (verdict : Verdict) (effect : σ → Except String (α × σ)) :
    Requests ρ σ α := fun session =>
  match verdict, effect session.store with
  | .served, .ok (answer, store) => (.ok answer, session.record store request true)
  | .lost error, .ok (_, store) => (.error error, session.record store request false)
  | .refused error, _ => (.error error, session.record session.store request false)
  | _, .error error => (.error error, session.record session.store request false)

/-- A request that only looks: it succeeds where the test does. -/
def check (request : ρ) (verdict : Verdict) (test : σ → Bool) (error : String) :
    Requests ρ σ Unit :=
  send request verdict fun store => if test store then .ok ((), store) else .error error

/-- Whether the program succeeds; its error is dropped. -/
def succeeds (program : Requests ρ σ α) : Requests ρ σ Bool := fun session =>
  match program session with
  | (.ok _, after) => (.ok true, after)
  | (.error _, after) => (.ok false, after)

/-! ## Weakest preconditions -/

/-- Started in this session the program ends as the postcondition says. -/
def Ends (program : Requests ρ σ α) (session : Session ρ σ)
    (post : Except String α → Session ρ σ → Prop) : Prop :=
  post (program session).1 (program session).2

variable {session : Session ρ σ} {post : Except String α → Session ρ σ → Prop}

@[simp] theorem ends_pure {a : α} :
    (pure a : Requests ρ σ α).Ends session post ↔ post (.ok a) session := Iff.rfl

@[simp] theorem ends_fail {error : String} :
    (fail error : Requests ρ σ α).Ends session post ↔ post (.error error) session := Iff.rfl

/-- The rest of a program runs where its first part succeeded. -/
theorem ends_bind {program : Requests ρ σ β} {next : β → Requests ρ σ α} :
    (program >>= next).Ends session post ↔
      program.Ends session fun result after =>
        match result with
        | .ok b => (next b).Ends after post
        | .error error => post (.error error) after := by
  unfold Ends
  show post ((program >>= next) session).1 ((program >>= next) session).2 ↔ _
  simp only [bind]
  cases h : program session with
  | mk result after => cases result <;> exact Iff.rfl

theorem Ends.mono {program : Requests ρ σ α} {post' : Except String α → Session ρ σ → Prop}
    (h : program.Ends session post)
    (himp : ∀ result after, post result after → post' result after) :
    program.Ends session post' := himp _ _ h

variable {request : ρ} {verdict : Verdict} {effect : σ → Except String (α × σ)}

/-- A request succeeds only when it is carried out; an error leaves the store, or
leaves what carrying the request out makes of it. -/
theorem ends_send
    (hok : ∀ answer store, verdict = .served → effect session.store = .ok (answer, store) →
      post (.ok answer) (session.record store request true))
    (hkept : ∀ error, (verdict = .served → ∀ done, effect session.store ≠ .ok done) →
      post (.error error) (session.record session.store request false))
    (hlost : ∀ error answer store, verdict = .lost error →
      effect session.store = .ok (answer, store) →
      post (.error error) (session.record store request false)) :
    (send request verdict effect).Ends session post := by
  unfold Ends send
  cases hverdict : verdict with
  | served =>
      cases heffect : effect session.store with
      | error error =>
          apply hkept
          intro _ done
          simp [heffect]
      | ok done => exact hok _ _ hverdict heffect
  | refused error =>
      apply hkept
      intro hserved
      rw [hverdict] at hserved
      cases hserved
  | lost error =>
      cases heffect : effect session.store with
      | error reason =>
          apply hkept
          intro hserved
          rw [hverdict] at hserved
          cases hserved
      | ok done => exact hlost _ _ _ hverdict heffect

/-- A request that fails to look finds nothing. -/
theorem succeeds_check {test : σ → Bool} {error : String} :
    (check request verdict test error).succeeds session =
      (.ok (decide (verdict = .served) && test session.store),
        session.record session.store request
          (decide (verdict = .served) && test session.store)) := by
  unfold succeeds check send
  cases htest : test session.store <;> cases verdict <;> simp [htest]

/-! ## Returned values -/

/-- Whatever the program returns satisfies the predicate. -/
def Returns (program : Requests ρ σ α) (holds : α → Prop) : Prop :=
  ∀ session a, (program session).1 = .ok a → holds a

theorem returns_pure {holds : α → Prop} {a : α} (h : holds a) :
    (pure a : Requests ρ σ α).Returns holds := by
  intro session b hb
  obtain rfl : a = b := Except.ok.inj hb
  exact h

theorem returns_fail {holds : α → Prop} {error : String} :
    (fail error : Requests ρ σ α).Returns holds := by
  intro session a ha
  cases ha

theorem returns_bind {program : Requests ρ σ β} {next : β → Requests ρ σ α} {holds : α → Prop}
    (h : ∀ b, (next b).Returns holds) : (program >>= next).Returns holds := by
  intro session a ha
  simp only [bind] at ha
  cases hprogram : program session with
  | mk result after =>
      rw [hprogram] at ha
      cases result with
      | error error => cases ha
      | ok b => exact h b after a ha

end Requests

end AbixioUi.Foundation
