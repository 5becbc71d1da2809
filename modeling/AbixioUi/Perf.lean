import AbixioUi.Foundation.Lists
import AbixioUi.Foundation.Runs
import Mathlib.Algebra.Ring.Nat

/-! # The performance window

Every message is a frame, and every frame pushes samples to series that keep the last
five minutes. A clock reading is the time since boot, and the start of the window is
computed by a subtraction that panics where the clock is younger than the window.
-/

namespace AbixioUi.Perf

open Foundation

/-! ## Series -/

def HISTORY_SECS : Nat := 300

/-- Clock readings are in nanoseconds. -/
def fromSecs (secs : Nat) : Nat := secs * 10 ^ 9

/-- The length of the window. -/
def history : Nat := fromSecs HISTORY_SECS

/-- An earlier reading; `none` is the panic on underflow. -/
def Instant.sub (now duration : Nat) : Option Nat :=
  if duration ≤ now then some (now - duration) else none

/-- A value with the time it was pushed at. -/
structure Sample (ν : Type) where
  time : Nat
  value : ν
deriving DecidableEq, Repr

structure TimeSeries (ν : Type) where
  samples : List (Sample ν)
deriving DecidableEq, Repr

section

variable {ν : Type}

/-- The loop that pops the samples before the cutoff. -/
def popBefore (cutoff : Nat) : List (Sample ν) → List (Sample ν)
  | [] => []
  | front :: rest => if front.time < cutoff then popBefore cutoff rest else front :: rest

namespace TimeSeries

def new : TimeSeries ν := ⟨[]⟩

def prune (series : TimeSeries ν) (now : Nat) : Option (TimeSeries ν) :=
  (Instant.sub now history).map fun cutoff => ⟨popBefore cutoff series.samples⟩

/-- Pushes a value at the reading that the call takes. -/
def push (series : TimeSeries ν) (now : Nat) (value : ν) : Option (TimeSeries ν) :=
  prune ⟨series.samples ++ [⟨now, value⟩]⟩ now

end TimeSeries

end

/-! ## Frames -/

/-- The floats that are pushed: the milliseconds of a duration, and counts. -/
structure FrameValues (ν : Type) where
  millis : Nat → ν
  ofCount : Nat → ν

/-- The readings of one frame: its own and one for each push. The last is taken only in
the frames that push to `fps`. -/
structure FrameClock where
  now : Nat
  frameTimes : Nat
  repaints : Nat
  fps : Nat
deriving DecidableEq, Repr

def FrameClock.readings (clock : FrameClock) : List Nat :=
  [clock.now, clock.frameTimes, clock.repaints, clock.fps]

structure PerfStats (ν : Type) where
  frameTimesMs : TimeSeries ν
  fps : TimeSeries ν
  lastFrame : Nat
  frameCount : Nat
  fpsUpdate : Nat
  fpsAccumulator : Nat
  repaints : TimeSeries ν
deriving DecidableEq, Repr

section

variable {ν : Type}

def PerfStats.new (now : Nat) : PerfStats ν where
  frameTimesMs := .new
  fps := .new
  lastFrame := now
  frameCount := 0
  fpsUpdate := now
  fpsAccumulator := 0
  repaints := .new

/-- A second has passed since the frames were last counted. -/
def PerfStats.counts (stats : PerfStats ν) (clock : FrameClock) : Prop :=
  fromSecs 1 ≤ clock.now - stats.fpsUpdate

instance (stats : PerfStats ν) (clock : FrameClock) : Decidable (stats.counts clock) :=
  inferInstanceAs (Decidable (_ ≤ _))

/-- The frames since they were last counted, with this one. -/
def PerfStats.accumulated (stats : PerfStats ν) : Nat := (stats.fpsAccumulator + 1) % 2 ^ 32

/-- The statistics after the two pushes that every frame makes. -/
def PerfStats.framed (stats : PerfStats ν) (clock : FrameClock)
    (frameTimesMs repaints : TimeSeries ν) : PerfStats ν :=
  { stats with
    frameTimesMs := frameTimesMs
    lastFrame := clock.now
    frameCount := (stats.frameCount + 1) % 2 ^ 64
    fpsAccumulator := stats.accumulated
    repaints := repaints }

def PerfStats.recordFrame (values : FrameValues ν) (stats : PerfStats ν) (clock : FrameClock) :
    Option (PerfStats ν) := do
  let frameTimesMs ← stats.frameTimesMs.push clock.frameTimes
    (values.millis (clock.now - stats.lastFrame))
  let repaints ← stats.repaints.push clock.repaints (values.ofCount 1)
  let framed := stats.framed clock frameTimesMs repaints
  if stats.counts clock then do
    let fps ← framed.fps.push clock.fps (values.ofCount framed.fpsAccumulator)
    some { framed with fps := fps, fpsAccumulator := 0, fpsUpdate := clock.now }
  else some framed

end

/-! ## The window of a series -/

section

variable {ν : Type}

def InTimeOrder (samples : List (Sample ν)) : Prop := samples.Pairwise fun a b => a.time ≤ b.time

/-- The samples not older than the window at this reading. -/
def recent (now : Nat) (pushed : List (Sample ν)) : List (Sample ν) :=
  pushed.filter fun sample => decide (now ≤ sample.time + history)

/-- The reading of the last push. -/
def lastPush (pushed : List (Sample ν)) : Nat := (pushed.getLast?.map Sample.time).getD 0

/-- What a series holds of what was pushed to it: in time order, the samples that were
not older than the window when the last one came. -/
structure Window (pushed samples : List (Sample ν)) : Prop where
  ordered : InTimeOrder samples
  kept : samples = recent (lastPush pushed) pushed

/-- The pushes of a clock that does not go back and now reads `latest`. -/
structure Pushes (latest : Nat) (pushed : List (Sample ν)) : Prop where
  ordered : InTimeOrder pushed
  le_latest : ∀ sample ∈ pushed, sample.time ≤ latest

variable {pushed : List (Sample ν)} {series : TimeSeries ν} {latest now : Nat} {value : ν}

theorem popBefore_eq_dropWhile (cutoff : Nat) (samples : List (Sample ν)) :
    popBefore cutoff samples = samples.dropWhile fun sample => decide (sample.time < cutoff) := by
  induction samples with
  | nil => rfl
  | cons front rest ih =>
      unfold popBefore
      by_cases hold : front.time < cutoff
      · rw [if_pos hold, ih, List.dropWhile_cons_of_pos (by simpa using hold)]
      · rw [if_neg hold, List.dropWhile_cons_of_neg (by simpa using hold)]

/-- In time order, popping from the front takes every old sample. -/
theorem popBefore_eq_recent {samples : List (Sample ν)}
    (hordered : InTimeOrder samples) (hnow : history ≤ now) :
    popBefore (now - history) samples = recent now samples := by
  rw [popBefore_eq_dropWhile, dropWhile_eq_filter, recent]
  · apply List.filter_congr
    intro sample _
    rw [← decide_not, decide_eq_decide]
    omega
  · apply List.Pairwise.imp ?_ hordered
    intro a b hle hold
    simp only [decide_eq_true_eq] at hold ⊢
    omega

/-- What has left an earlier window is not in a later one. -/
theorem recent_recent {earlier : Nat} (hle : earlier ≤ now) (pushed : List (Sample ν)) :
    recent now (recent earlier pushed) = recent now pushed := by
  unfold recent
  rw [List.filter_filter]
  apply List.filter_congr
  intro sample _
  rw [← Bool.decide_and, decide_eq_decide]
  omega

theorem lastPush_le (h : Pushes latest pushed) : lastPush pushed ≤ latest := by
  unfold lastPush
  cases hlast : pushed.getLast? with
  | none => exact Nat.zero_le latest
  | some last => exact h.le_latest last (List.mem_of_getLast? hlast)

theorem Pushes.push (h : Pushes latest pushed) (hle : latest ≤ now) (value : ν) :
    Pushes now (pushed ++ [⟨now, value⟩]) := by
  have hpast : ∀ sample ∈ pushed, sample.time ≤ now :=
    fun sample hsample => Nat.le_trans (h.le_latest sample hsample) hle
  constructor
  · unfold InTimeOrder
    rw [List.pairwise_append]
    refine ⟨h.ordered, List.pairwise_singleton _ _, fun sample hsample added hadded => ?_⟩
    rw [List.mem_singleton.mp hadded]
    exact hpast sample hsample
  · intro sample hsample
    rcases List.mem_append.mp hsample with hold | hnew
    · exact hpast sample hold
    · rw [List.mem_singleton.mp hnew]

theorem Pushes.mono (h : Pushes latest pushed) (hle : latest ≤ now) : Pushes now pushed :=
  ⟨h.ordered, fun sample hsample => Nat.le_trans (h.le_latest sample hsample) hle⟩

/-- A push keeps the window when the clock is old enough. -/
theorem TimeSeries.push_window (hpushes : Pushes latest pushed) (hle : latest ≤ now)
    (hwindow : Window pushed series.samples) (hnow : history ≤ now) (value : ν) :
    ∃ next, series.push now value = some next ∧
      Window (pushed ++ [⟨now, value⟩]) next.samples := by
  have hadded := hpushes.push hle value
  have hordered : InTimeOrder (series.samples ++ [⟨now, value⟩]) := by
    apply List.Pairwise.sublist ?_ hadded.ordered
    rw [hwindow.kept]
    exact List.Sublist.append_right List.filter_sublist _
  have hsamples : popBefore (now - history) (series.samples ++ [⟨now, value⟩]) =
      recent now (pushed ++ [⟨now, value⟩]) := by
    rw [popBefore_eq_recent hordered hnow, hwindow.kept]
    unfold recent
    rw [List.filter_append, List.filter_append]
    congr 1
    exact recent_recent (Nat.le_trans (lastPush_le hpushes) hle) pushed
  have hpush : series.push now value = some ⟨recent now (pushed ++ [⟨now, value⟩])⟩ := by
    rw [TimeSeries.push, TimeSeries.prune, Instant.sub, if_pos hnow, ← hsamples]
    rfl
  have hlast : lastPush (pushed ++ [⟨now, value⟩]) = now := by simp [lastPush]
  refine ⟨_, hpush, ⟨?_, ?_⟩⟩
  · exact List.Pairwise.sublist List.filter_sublist hadded.ordered
  · rw [hlast]

/-- While the clock is younger than the window every push panics. -/
theorem TimeSeries.push_young (hnow : now < history) : series.push now value = none := by
  rw [TimeSeries.push, TimeSeries.prune, Instant.sub, if_neg (Nat.not_le_of_lt hnow)]
  rfl

end

/-! ## Runs of frames -/

/-- What has been pushed to each series. -/
structure Pushed (ν : Type) where
  frameTimesMs : List (Sample ν)
  fps : List (Sample ν)
  repaints : List (Sample ν)

/-- The statistics after some frames, `none` once a frame has panicked, with the pushes
behind them and the last reading of the clock. -/
structure PerfRun (ν : Type) where
  stats : Option (PerfStats ν)
  pushed : Pushed ν
  latest : Nat

section

variable {ν : Type}

/-- The samples that a frame pushes. -/
def PerfStats.pushes (values : FrameValues ν) (stats : PerfStats ν) (clock : FrameClock)
    (pushed : Pushed ν) : Pushed ν where
  frameTimesMs := pushed.frameTimesMs ++
    [⟨clock.frameTimes, values.millis (clock.now - stats.lastFrame)⟩]
  fps := if stats.counts clock then
      pushed.fps ++ [⟨clock.fps, values.ofCount stats.accumulated⟩] else pushed.fps
  repaints := pushed.repaints ++ [⟨clock.repaints, values.ofCount 1⟩]

namespace PerfRun

def start (now : Nat) : PerfRun ν := ⟨some (.new now), ⟨[], [], []⟩, now⟩

def step (values : FrameValues ν) (state : PerfRun ν) (clock : FrameClock) : PerfRun ν :=
  match state.stats with
  | none => state
  | some stats =>
      ⟨stats.recordFrame values clock, stats.pushes values clock state.pushed, clock.fps⟩

/-- No frame has panicked and every series holds the window of its pushes. -/
def Windowed (state : PerfRun ν) : Prop :=
  ∃ stats, state.stats = some stats ∧
    Window state.pushed.frameTimesMs stats.frameTimesMs.samples ∧
    Window state.pushed.fps stats.fps.samples ∧
    Window state.pushed.repaints stats.repaints.samples

/-- The frame's readings go on from the last one. -/
def InOrder (state : PerfRun ν) (clock : FrameClock) : Prop :=
  (state.latest :: clock.readings).Pairwise (· ≤ ·)

/-- The pushes so far are those of a clock that does not go back. -/
structure Clocked (state : PerfRun ν) : Prop where
  frameTimesMs : Pushes state.latest state.pushed.frameTimesMs
  fps : Pushes state.latest state.pushed.fps
  repaints : Pushes state.latest state.pushed.repaints

end PerfRun

variable {values : FrameValues ν} {state : PerfRun ν} {stats : PerfStats ν} {clock : FrameClock}

/-- A frame panics in its first push while the clock is young. -/
theorem PerfStats.recordFrame_young (hyoung : clock.frameTimes < history) :
    stats.recordFrame values clock = none := by
  unfold PerfStats.recordFrame
  rw [TimeSeries.push_young hyoung]
  rfl

namespace PerfRun

theorem InOrder.chain (h : InOrder state clock) : state.latest ≤ clock.now ∧
    clock.now ≤ clock.frameTimes ∧ clock.frameTimes ≤ clock.repaints ∧
      clock.repaints ≤ clock.fps := by
  simp only [InOrder, FrameClock.readings, List.pairwise_cons, List.forall_mem_cons] at h
  omega

theorem step_none (hstats : state.stats = none) (values : FrameValues ν) (clock : FrameClock) :
    step values state clock = state := by
  unfold step
  rw [hstats]

theorem step_some (hstats : state.stats = some stats) (values : FrameValues ν)
    (clock : FrameClock) : step values state clock =
      ⟨stats.recordFrame values clock, stats.pushes values clock state.pushed, clock.fps⟩ := by
  unfold step
  rw [hstats]

/-- Later pushes come at later readings. -/
theorem Clocked.step (h : Clocked state) (hin : InOrder state clock) :
    Clocked (step values state clock) := by
  have hchain := hin.chain
  cases hstats : state.stats with
  | none =>
      rw [step_none hstats]
      exact h
  | some stats =>
      rw [step_some hstats]
      have hframes : state.latest ≤ clock.frameTimes := by omega
      have hrepaints : state.latest ≤ clock.repaints := by omega
      have hfps : state.latest ≤ clock.fps := by omega
      constructor
      · apply (h.frameTimesMs.push hframes _).mono
        show clock.frameTimes ≤ clock.fps
        omega
      · show Pushes clock.fps (if stats.counts clock then _ else _)
        split
        · exact h.fps.push hfps _
        · exact h.fps.mono hfps
      · apply (h.repaints.push hrepaints _).mono
        show clock.repaints ≤ clock.fps
        omega

/-- A frame of an old enough clock keeps all three windows. -/
theorem step_old (h : Clocked state) (hin : InOrder state clock) (hwindowed : Windowed state)
    (hold : history ≤ clock.frameTimes) : Windowed (step values state clock) := by
  have hchain := hin.chain
  obtain ⟨stats, hstats, hframes, hfps, hrepaints⟩ := hwindowed
  rw [step_some hstats]
  obtain ⟨frames, hpushFrames, hwindowFrames⟩ := TimeSeries.push_window h.frameTimesMs
    (show state.latest ≤ clock.frameTimes by omega) hframes hold
    (values.millis (clock.now - stats.lastFrame))
  obtain ⟨repaints, hpushRepaints, hwindowRepaints⟩ := TimeSeries.push_window h.repaints
    (show state.latest ≤ clock.repaints by omega) hrepaints (by omega) (values.ofCount 1)
  obtain ⟨fps, hpushFps, hwindowFps⟩ := TimeSeries.push_window h.fps
    (show state.latest ≤ clock.fps by omega) hfps (by omega) (values.ofCount stats.accumulated)
  let framed := stats.framed clock frames repaints
  by_cases hcounts : stats.counts clock
  · have hframe : stats.recordFrame values clock =
        some { framed with fps := fps, fpsAccumulator := 0, fpsUpdate := clock.now } := by
      simp only [PerfStats.recordFrame, hpushFrames, hpushRepaints, Option.bind_eq_bind,
        Option.bind_some, if_pos hcounts]
      show (stats.fps.push clock.fps (values.ofCount stats.accumulated)).bind _ = _
      rw [hpushFps]
      rfl
    refine ⟨_, hframe, hwindowFrames, ?_, hwindowRepaints⟩
    show Window (if stats.counts clock then _ else _) _
    rw [if_pos hcounts]
    exact hwindowFps
  · have hframe : stats.recordFrame values clock = some framed := by
      simp only [PerfStats.recordFrame, hpushFrames, hpushRepaints, Option.bind_eq_bind,
        Option.bind_some, if_neg hcounts]
      rfl
    refine ⟨_, hframe, hwindowFrames, ?_, hwindowRepaints⟩
    show Window (if stats.counts clock then _ else _) _
    rw [if_neg hcounts]
    exact hfps

theorem step_windowed (h : Clocked state) (hin : InOrder state clock)
    (hwindowed : Windowed state) :
    Windowed (step values state clock) ↔ history ≤ clock.frameTimes := by
  constructor
  · intro hnext
    by_contra hyoung
    obtain ⟨stats, hstats, -⟩ := hwindowed
    rw [step_some hstats, PerfStats.recordFrame_young (Nat.lt_of_not_le hyoung)] at hnext
    obtain ⟨_, hsome, -⟩ := hnext
    cases hsome
  · exact step_old h hin hwindowed

/-- A clock whose readings do not go back reads each frame in order. -/
theorem along_inOrder {frames : List FrameClock}
    (hclock : (state.latest :: frames.flatMap FrameClock.readings).Pairwise (· ≤ ·)) :
    Along (step values) InOrder state frames := by
  induction frames generalizing state with
  | nil => trivial
  | cons frame frames ih =>
      rw [List.flatMap_cons] at hclock
      constructor
      · apply List.Pairwise.sublist ?_ hclock
        exact (List.sublist_append_left _ _).cons_cons _
      · apply ih
        apply List.Pairwise.sublist ?_ hclock
        cases hstats : state.stats with
        | none =>
            rw [step_none hstats]
            exact (List.sublist_append_right _ _).cons_cons _
        | some stats =>
            rw [step_some hstats]
            show List.Sublist (frame.fps :: _)
              ([state.latest, frame.now, frame.frameTimes, frame.repaints] ++ frame.fps :: _)
            exact List.sublist_append_right _ _

theorem start_clocked (now : Nat) : Clocked (start now : PerfRun ν) := by
  have hnone : Pushes now ([] : List (Sample ν)) := ⟨List.Pairwise.nil, by simp⟩
  exact ⟨hnone, hnone, hnone⟩

theorem start_windowed (now : Nat) : Windowed (start now : PerfRun ν) := by
  have hnone : Window ([] : List (Sample ν)) [] := ⟨List.Pairwise.nil, rfl⟩
  exact ⟨.new now, rfl, hnone, hnone, hnone⟩

end PerfRun

/-- The windows hold after every frame, and no frame panics, exactly if no frame comes
before the clock is as old as the window. -/
theorem recordFrame_windows (values : FrameValues ν) (boot : Nat) (frames : List FrameClock)
    (hclock : (boot :: frames.flatMap FrameClock.readings).Pairwise (· ≤ ·)) :
    (∀ earlier, earlier <+: frames →
      (run (PerfRun.step values) (PerfRun.start boot) earlier).Windowed) ↔
        ∀ frame ∈ frames, history ≤ frame.frameTimes := by
  rw [forall_prefix_iff_along PerfRun.Clocked PerfRun.Windowed
    (fun state frame hclocked hin => hclocked.step hin)
    (fun state frame hclocked hin hwindowed => PerfRun.step_windowed hclocked hin hwindowed)
    (PerfRun.start_clocked boot) (PerfRun.start_windowed boot) (PerfRun.along_inOrder hclock)]
  exact along_iff_forall (fun frame => history ≤ frame.frameTimes) _ frames

/-- Two frames, four hundred seconds after boot and then five minutes later. -/
theorem recordFrame_windows_holds :
    (∀ earlier, earlier <+: [FrameClock.mk (fromSecs 400) (fromSecs 400) (fromSecs 400)
        (fromSecs 400), ⟨fromSecs 700, fromSecs 700, fromSecs 700, fromSecs 700⟩] →
      (run (PerfRun.step ⟨id, id⟩) (PerfRun.start (fromSecs 399)) earlier).Windowed) ↔
        ∀ frame ∈ [FrameClock.mk (fromSecs 400) (fromSecs 400) (fromSecs 400) (fromSecs 400),
          ⟨fromSecs 700, fromSecs 700, fromSecs 700, fromSecs 700⟩],
          history ≤ frame.frameTimes :=
  recordFrame_windows ⟨id, id⟩ (fromSecs 399) _ (by decide)

/-- A frame ten seconds after boot panics. -/
theorem recordFrame_young_panics :
    (fromSecs 9 :: [FrameClock.mk (fromSecs 10) (fromSecs 10) (fromSecs 10)
      (fromSecs 10)].flatMap FrameClock.readings).Pairwise (· ≤ ·) ∧
    ¬ (∀ earlier, earlier <+: [FrameClock.mk (fromSecs 10) (fromSecs 10) (fromSecs 10)
        (fromSecs 10)] →
      (run (PerfRun.step ⟨id, id⟩) (PerfRun.start (fromSecs 9)) earlier).Windowed) := by
  refine ⟨by decide, fun hwindows => ?_⟩
  obtain ⟨stats, hstats, -⟩ := hwindows _ (List.prefix_rfl)
  cases hstats

end

end AbixioUi.Perf
