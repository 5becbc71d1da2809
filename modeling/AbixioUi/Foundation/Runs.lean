/-! # Runs of event-driven machines

A machine consumes one event at a time. `Along` says that every step of a run
meets a condition on the state before the step and the event. Invariants are
proved once per step and lifted here to every run and to every transition of it.
-/

namespace AbixioUi.Foundation

universe u v

variable {σ : Type u} {ε : Type v}

/-- The state after the given events, first event first. -/
def run (step : σ → ε → σ) (s : σ) (events : List ε) : σ := events.foldl step s

/-- Every step of the run meets the condition in the state where it is taken. -/
def Along (step : σ → ε → σ) (ok : σ → ε → Prop) : σ → List ε → Prop
  | _, [] => True
  | s, e :: es => ok s e ∧ Along step ok (step s e) es

/-- One step of a run, with the states around it. -/
structure Transition (σ : Type u) (ε : Type v) where
  before : σ
  event : ε
  after : σ

/-- Every transition of the run, in order. -/
def transitions (step : σ → ε → σ) : σ → List ε → List (Transition σ ε)
  | _, [] => []
  | s, e :: es => ⟨s, e, step s e⟩ :: transitions step (step s e) es

variable {step : σ → ε → σ} {ok : σ → ε → Prop}

@[simp] theorem run_nil (s : σ) : run step s [] = s := rfl

@[simp] theorem run_cons (s : σ) (e : ε) (es : List ε) :
    run step s (e :: es) = run step (step s e) es := rfl

theorem run_append (s : σ) (as bs : List ε) :
    run step s (as ++ bs) = run step (run step s as) bs := by
  simp [run, List.foldl_append]

theorem along_append (s : σ) (as bs : List ε) :
    Along step ok s (as ++ bs) ↔ Along step ok s as ∧ Along step ok (run step s as) bs := by
  induction as generalizing s with
  | nil => simp [Along]
  | cons a as ih => simp [Along, ih, and_assoc]

theorem Along.and {ok' : σ → ε → Prop} {s : σ} {es : List ε} (h : Along step ok s es)
    (h' : Along step ok' s es) : Along step (fun s e => ok s e ∧ ok' s e) s es := by
  induction es generalizing s with
  | nil => trivial
  | cons e es ih => exact ⟨⟨h.1, h'.1⟩, ih h.2 h'.2⟩

/-- Conditions that agree wherever an invariant of all steps holds agree along runs. -/
theorem along_congr {ok' : σ → ε → Prop} (Base : σ → Prop)
    (hbase : ∀ s e, Base s → Base (step s e)) (hiff : ∀ s e, Base s → (ok s e ↔ ok' s e))
    {s : σ} (hs : Base s) (es : List ε) : Along step ok s es ↔ Along step ok' s es := by
  induction es generalizing s with
  | nil => exact Iff.rfl
  | cons e es ih => exact and_congr (hiff s e hs) (ih (hbase s e hs))

/-- Two conditions agree along runs where they agree in the states that the first of
them leads to. -/
theorem along_congr_of_kept {ok' : σ → ε → Prop} (Inv : σ → Prop)
    (hiff : ∀ s e, Inv s → (ok s e ↔ ok' s e)) (hkept : ∀ s e, Inv s → ok s e → Inv (step s e))
    {s : σ} (hs : Inv s) (es : List ε) : Along step ok s es ↔ Along step ok' s es := by
  induction es generalizing s with
  | nil => exact Iff.rfl
  | cons e es ih =>
      constructor
      · rintro ⟨hok, hrest⟩
        exact ⟨(hiff s e hs).mp hok, (ih (hkept s e hs hok)).mp hrest⟩
      · rintro ⟨hok', hrest⟩
        have hok := (hiff s e hs).mpr hok'
        exact ⟨hok, (ih (hkept s e hs hok)).mpr hrest⟩

theorem along_true (s : σ) (es : List ε) : Along step (fun _ _ => True) s es := by
  induction es generalizing s with
  | nil => trivial
  | cons e es ih => exact ⟨trivial, ih _⟩

/-- A condition on the events alone is one on each of them. -/
theorem along_iff_forall (p : ε → Prop) (s : σ) (es : List ε) :
    Along step (fun _ e => p e) s es ↔ ∀ e ∈ es, p e := by
  induction es generalizing s with
  | nil => simp [Along]
  | cons e es ih => simp [Along, ih]

/-- What every admissible step preserves holds at the end of every admissible run. -/
theorem run_invariant (Inv : σ → Prop) (hstep : ∀ s e, Inv s → ok s e → Inv (step s e))
    {s : σ} {es : List ε} (h0 : Inv s) (hok : Along step ok s es) : Inv (run step s es) := by
  induction es generalizing s with
  | nil => exact h0
  | cons e es ih => exact ih (hstep s e h0 hok.1) hok.2

/-- Where single steps preserve the invariant exactly under the condition, runs do too. -/
theorem along_iff_forall_transitions (Inv : σ → Prop)
    (hstep : ∀ s e, Inv s → (Inv (step s e) ↔ ok s e)) {s : σ} (h : Inv s) (es : List ε) :
    Along step ok s es ↔ ∀ t ∈ transitions step s es, Inv t.after := by
  induction es generalizing s with
  | nil => simp [Along, transitions]
  | cons e es ih =>
      simp only [Along, transitions, List.forall_mem_cons]
      constructor
      · rintro ⟨hok, hrest⟩
        have hnext := (hstep s e h).mpr hok
        exact ⟨hnext, (ih hnext).mp hrest⟩
      · rintro ⟨hnext, hrest⟩
        exact ⟨(hstep s e h).mp hnext, (ih hnext).mpr hrest⟩

theorem forall_prefix_cons (P : List ε → Prop) (e : ε) (es : List ε) :
    (∀ earlier, earlier <+: e :: es → P earlier) ↔
      P [] ∧ ∀ earlier, earlier <+: es → P (e :: earlier) := by
  constructor
  · intro h
    exact ⟨h [] List.nil_prefix, fun earlier hp =>
      h (e :: earlier) (List.cons_prefix_cons.mpr ⟨rfl, hp⟩)⟩
  · rintro ⟨hnil, hcons⟩ earlier hp
    cases earlier with
    | nil => exact hnil
    | cons a earlier =>
        obtain ⟨rfl, htail⟩ := List.cons_prefix_cons.mp hp
        exact hcons earlier htail

/-- Where guarded steps keep a base invariant, and keep the property exactly under the
condition, the property holds in every state of a guarded run exactly if every step
meets the condition. -/
theorem forall_prefix_iff_along {guard : σ → ε → Prop} (Base Inv : σ → Prop)
    (hbase : ∀ s e, Base s → guard s e → Base (step s e))
    (hstep : ∀ s e, Base s → guard s e → Inv s → (Inv (step s e) ↔ ok s e))
    {s : σ} (hs : Base s) (h : Inv s) {es : List ε} (hguard : Along step guard s es) :
    (∀ earlier, earlier <+: es → Inv (run step s earlier)) ↔ Along step ok s es := by
  induction es generalizing s with
  | nil =>
      constructor
      · exact fun _ => trivial
      · intro _ earlier hp
        rw [List.prefix_nil.mp hp]
        exact h
  | cons e es ih =>
      rw [forall_prefix_cons (fun earlier => Inv (run step s earlier))]
      constructor
      · rintro ⟨-, hrest⟩
        have hnext : Inv (step s e) := hrest [] List.nil_prefix
        exact ⟨(hstep s e hs hguard.1 h).mp hnext,
          (ih (hbase s e hs hguard.1) hnext hguard.2).mp hrest⟩
      · rintro ⟨hok, hrest⟩
        have hnext : Inv (step s e) := (hstep s e hs hguard.1 h).mpr hok
        exact ⟨h, (ih (hbase s e hs hguard.1) hnext hguard.2).mpr hrest⟩

/-- Two properties that agree wherever the base invariant holds agree along guarded runs,
if the base invariant is kept by the steps from states with the second property. -/
theorem forall_prefix_congr {guard : σ → ε → Prop} (Base P Q : σ → Prop)
    (hiff : ∀ s, Base s → (P s ↔ Q s))
    (hbase : ∀ s e, Base s → guard s e → Q s → Base (step s e))
    {s : σ} (hs : Base s) {es : List ε} (hguard : Along step guard s es) :
    (∀ earlier, earlier <+: es → P (run step s earlier)) ↔
      ∀ earlier, earlier <+: es → Q (run step s earlier) := by
  induction es generalizing s with
  | nil =>
      constructor
      · intro h earlier hp
        rw [List.prefix_nil.mp hp]
        exact (hiff s hs).mp (h [] List.nil_prefix)
      · intro h earlier hp
        rw [List.prefix_nil.mp hp]
        exact (hiff s hs).mpr (h [] List.nil_prefix)
  | cons e es ih =>
      rw [forall_prefix_cons (fun earlier => P (run step s earlier)),
        forall_prefix_cons (fun earlier => Q (run step s earlier))]
      simp only [run_nil, run_cons, hiff s hs]
      constructor
      · rintro ⟨hq, hrest⟩
        exact ⟨hq, (ih (hbase s e hs hguard.1 hq) hguard.2).mp hrest⟩
      · rintro ⟨hq, hrest⟩
        exact ⟨hq, (ih (hbase s e hs hguard.1 hq) hguard.2).mpr hrest⟩

/-- A transition of a run splits the events around it. -/
theorem mem_transitions {s : σ} {es : List ε} {t : Transition σ ε}
    (h : t ∈ transitions step s es) :
    ∃ earlier later, es = earlier ++ t.event :: later ∧ t.before = run step s earlier ∧
      t.after = step t.before t.event := by
  induction es generalizing s with
  | nil => simp [transitions] at h
  | cons e es ih =>
      rcases List.mem_cons.mp h with rfl | h
      · exact ⟨[], es, rfl, rfl, rfl⟩
      · obtain ⟨earlier, later, hes, hb, ha⟩ := ih h
        exact ⟨e :: earlier, later, by simp [hes], by simpa using hb, ha⟩

/-- A condition along a run is a condition on each of its transitions. -/
theorem along_iff_transitions {s : σ} {es : List ε} :
    Along step ok s es ↔ ∀ t ∈ transitions step s es, ok t.before t.event := by
  induction es generalizing s with
  | nil => simp [Along, transitions]
  | cons e es ih => simp [Along, transitions, ih]

/-- The step between two parts of a run is one of its transitions. -/
theorem transition_mem (s : σ) (earlier : List ε) (e : ε) (later : List ε) :
    ⟨run step s earlier, e, step (run step s earlier) e⟩ ∈
      transitions step s (earlier ++ e :: later) := by
  induction earlier generalizing s with
  | nil => simp [transitions]
  | cons a earlier ih => exact List.mem_cons_of_mem _ (ih (step s a))

/-- Every state a transition starts from satisfies an invariant of the run. -/
theorem transitions_invariant (Inv : σ → Prop) (hstep : ∀ s e, Inv s → ok s e → Inv (step s e))
    {s : σ} {es : List ε} (h0 : Inv s) (hok : Along step ok s es) {t : Transition σ ε}
    (h : t ∈ transitions step s es) :
    Inv t.before ∧ ok t.before t.event ∧ t.after = step t.before t.event := by
  obtain ⟨earlier, later, rfl, hb, ha⟩ := mem_transitions h
  obtain ⟨hpre, hpost⟩ := (along_append s earlier _).mp hok
  rw [hb]
  exact ⟨run_invariant Inv hstep h0 hpre, hpost.1, hb ▸ ha⟩

end AbixioUi.Foundation
