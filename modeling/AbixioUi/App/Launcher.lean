import AbixioUi.App.World

/-! # Launches of the server

Every launch has a child process, a forwarding task that turns the lines of its two
output streams into messages, and a bounded channel between that task and the
runtime. The forwarding task announces the exit when the streams ended, and also
when the channel refused a line; the announcement does not say which launch it is
about.
-/

namespace AbixioUi

open Foundation

/-! ## Launches -/

inductive ServerEvent
  | line (text : String)
  | exited (code : Option Int)
deriving DecidableEq, Repr

/-- The messages of the log stream of a launch. -/
inductive LogMessage
  | serverLogLine (line : String)
  | serverExited (code : Option Int)
deriving DecidableEq, Repr

def ServerEvent.message : ServerEvent → LogMessage
  | .line text => .serverLogLine text
  | .exited code => .serverExited code

/-- Where the forwarding task is: in its loop, behind it, or at its end. -/
inductive Forwarder
  | receiving
  | leaving
  | done
deriving DecidableEq, Repr

/-- One launch: what its streams sent and the task has not received, whether both
streams ended, whether the task left its loop over a refused message, and what the
runtime has not taken from the channel. -/
structure Launch where
  events : List ServerEvent
  ended : Bool
  forwarder : Forwarder
  gaveUp : Bool
  slots : List LogMessage
deriving DecidableEq, Repr

def Launch.spawned : Launch where
  events := []
  ended := false
  forwarder := .receiving
  gaveUp := false
  slots := []

def CHANNEL_SLOTS : Nat := 128

/-- The channel holds its slots and one message more for its sender. -/
def Launch.trySend (launch : Launch) (message : LogMessage) : Option Launch :=
  if launch.slots.length < CHANNEL_SLOTS + 1 then
    some { launch with slots := launch.slots ++ [message] }
  else none

/-- The forwarding task up to its next send. The runtime may take messages between
any two sends. -/
def Launch.forward (launch : Launch) : Launch :=
  match launch.forwarder with
  | .receiving =>
      match launch.events with
      | event :: rest =>
          let received := { launch with events := rest }
          match received.trySend event.message with
          | some sent => sent
          | none => { received with forwarder := .leaving, gaveUp := true }
      | [] => if launch.ended then { launch with forwarder := .leaving } else launch
  | .leaving =>
      match launch.trySend (.serverExited none) with
      | some sent => { sent with forwarder := .done }
      | none => { launch with forwarder := .done }
  | .done => launch

/-- A stream that has ended sends no more lines. -/
def Launch.write (launch : Launch) (line : String) : Launch :=
  if launch.ended then launch else { launch with events := launch.events ++ [.line line] }

def Launch.endStreams (launch : Launch) : Launch := { launch with ended := true }

/-! ## The launcher -/

/-- The application with the child it stores, by the number of its launch, the log it
shows, every launch so far, and the messages on their way to it. -/
structure Launcher where
  app : App
  child : Option Nat
  log : List String
  launches : List Launch
  inbox : List (Nat × LogMessage)

namespace Launcher

def start (connections : List Connection) (serverConfig : ServerConfig)
    (startup : StartupOptions) : Launcher where
  app := (App.new connections serverConfig startup).1
  child := none
  log := []
  launches := []
  inbox := []

def handleStartServer (surroundings : Surroundings) (launcher : Launcher) : Launcher :=
  let app := (AbixioUi.handleStartServer surroundings launcher.app).1
  if launcher.app.serverRunning then launcher
  else if launcher.app.serverConfig.volumes.all fun volume => trim volume = [] then
    { launcher with app := app }
  else
    match surroundings.spawnServer with
    | .error _ => { launcher with app := app, log := [] }
    | .ok () =>
        { launcher with
          app := app
          child := some launcher.launches.length
          log := ["[ui] server starting..."]
          launches := launcher.launches ++ [.spawned] }

def handleStopServer (launcher : Launcher) : Launcher :=
  { launcher with
    app := (AbixioUi.handleStopServer launcher.app).1
    child := none
    log :=
      if launcher.child.isSome then launcher.log ++ ["[ui] server stopped."] else launcher.log }

/-- The log keeps its last 500 lines. -/
def handleServerLogLine (launcher : Launcher) (line : String) : Launcher :=
  let log := launcher.log ++ [line]
  { launcher with log := log.drop (log.length - 500) }

def handleServerExited (launcher : Launcher) (code : Option Int) : Launcher :=
  let message := match code with
    | some code => "[ui] server exited with code " ++ toString code
    | none => "[ui] server exited."
  { launcher with
    app := (AbixioUi.handleServerExited launcher.app).1
    child := none
    log := launcher.log ++ [message] }

def receive (launcher : Launcher) : LogMessage → Launcher
  | .serverLogLine line => launcher.handleServerLogLine line
  | .serverExited code => launcher.handleServerExited code

/-- The runtime takes the next message of a launch from its channel. -/
def take (launcher : Launcher) (launch : Nat) : Launcher :=
  match launcher.launches[launch]? with
  | none => launcher
  | some state =>
      match state.slots with
      | [] => launcher
      | message :: rest =>
          { launcher with
            launches := launcher.launches.set launch { state with slots := rest }
            inbox := launcher.inbox ++ [(launch, message)] }

/-- The application handles the oldest message it was sent. -/
def deliver (launcher : Launcher) : Launcher :=
  match launcher.inbox with
  | [] => launcher
  | (_, message) :: rest => { launcher with inbox := rest }.receive message

end Launcher

/-- The user starts, stops and configures the server, a server process writes lines
and ends its streams, a forwarding task goes on, the runtime takes a message from a
channel, and the application handles the oldest message it was sent. -/
inductive LauncherEvent
  | configure (serverConfig : ServerConfig)
  | startServer (surroundings : Surroundings)
  | stopServer
  | write (launch : Nat) (line : String)
  | endStreams (launch : Nat)
  | forward (launch : Nat)
  | take (launch : Nat)
  | deliver

def Launcher.step (launcher : Launcher) : LauncherEvent → Launcher
  | .configure serverConfig =>
      { launcher with app := { launcher.app with serverConfig := serverConfig } }
  | .startServer surroundings => launcher.handleStartServer surroundings
  | .stopServer => launcher.handleStopServer
  | .write launch line =>
      { launcher with launches := launcher.launches.modify launch (·.write line) }
  | .endStreams launch =>
      { launcher with launches := launcher.launches.modify launch Launch.endStreams }
  | .forward launch => { launcher with launches := launcher.launches.modify launch Launch.forward }
  | .take launch => launcher.take launch
  | .deliver => launcher.deliver

/-! ## The property -/

/-- The server stops running, or the stored child is dropped. -/
def Launcher.Loses (before after : Launcher) : Prop :=
  (before.app.serverRunning = true ∧ after.app.serverRunning = false) ∨
    ∃ child, before.child = some child ∧ after.child ≠ some child

/-- The event is an exit notice of the stored child, whose streams have ended. -/
def Launcher.ExitNoticed (launcher : Launcher) (event : LauncherEvent) : Prop :=
  ∃ child code rest launch, event = .deliver ∧ launcher.child = some child ∧
    launcher.inbox = (child, .serverExited code) :: rest ∧
    launcher.launches[child]? = some launch ∧ launch.ended = true

/-- The server is lost only by stopping it or by the end of its own streams, and it
runs exactly when its child is stored. -/
structure Launcher.KeepsServer (launcher : Launcher) (event : LauncherEvent) : Prop where
  lost : launcher.Loses (launcher.step event) →
    event = .stopServer ∨ launcher.ExitNoticed event
  running_iff : (launcher.step event).app.serverRunning = true ↔
    (launcher.step event).child.isSome = true

/-- An exit notice that finds a child stored is of that child's launch, and was not
sent over a refused message while the streams are open. -/
def Launcher.NoticeDue (launcher : Launcher) : LauncherEvent → Prop
  | .deliver =>
      ∀ launch code rest, launcher.inbox = (launch, .serverExited code) :: rest →
        ∀ child, launcher.child = some child →
          launch = child ∧ ∀ state, launcher.launches[child]? = some state →
            state.gaveUp = true → state.ended = true
  | _ => True

/-! ## What an exit notice tells -/

/-- The streams ended, or the task left its loop before. -/
def Launch.Reported (launch : Launch) : Prop := launch.gaveUp = true ∨ launch.ended = true

/-- Only lines are sent, and a task behind its loop or with an exit notice on the way
has a reason for it. -/
structure Launch.Sound (launch : Launch) : Prop where
  lines : ∀ event ∈ launch.events, ∃ text, event = .line text
  left : launch.forwarder ≠ .receiving → launch.Reported
  noticed : ∀ code, .serverExited code ∈ launch.slots → launch.Reported

theorem Launch.spawned_sound : Launch.spawned.Sound :=
  ⟨by simp [spawned], fun h => absurd rfl h, by simp [spawned]⟩

section Launches

variable {launch : Launch}

theorem Launch.Sound.write (h : launch.Sound) (line : String) : (launch.write line).Sound := by
  unfold Launch.write
  split
  · exact h
  · refine ⟨?_, h.left, h.noticed⟩
    intro event hevent
    rcases List.mem_append.mp hevent with hevent | hevent
    · exact h.lines event hevent
    · exact ⟨line, List.mem_singleton.mp hevent⟩

theorem Launch.Sound.endStreams (h : launch.Sound) : launch.endStreams.Sound :=
  ⟨h.lines, fun _ => .inr rfl, fun _ _ => .inr rfl⟩

theorem Launch.trySend_eq_some {message : LogMessage} {sent : Launch}
    (h : launch.trySend message = some sent) :
    sent = { launch with slots := launch.slots ++ [message] } := by
  unfold Launch.trySend at h
  split at h
  · exact (Option.some.inj h).symm
  · cases h

theorem Launch.Sound.forward (h : launch.Sound) : launch.forward.Sound := by
  unfold Launch.forward
  split
  next hreceiving =>
    split
    next event rest hevents =>
      have hrest : ∀ event ∈ rest, ∃ text, event = .line text := fun event hevent =>
        h.lines event (hevents ▸ List.mem_cons_of_mem _ hevent)
      obtain ⟨text, rfl⟩ := h.lines event (hevents ▸ List.mem_cons_self)
      dsimp only
      split
      next sent hsent =>
        rw [Launch.trySend_eq_some hsent]
        refine ⟨hrest, h.left, ?_⟩
        intro code hcode
        rcases List.mem_append.mp hcode with hcode | hcode
        · exact h.noticed code hcode
        · cases List.mem_singleton.mp hcode
      next => exact ⟨hrest, fun _ => .inl rfl, fun _ _ => .inl rfl⟩
    next hevents =>
      split
      next hended => exact ⟨h.lines, fun _ => .inr hended, h.noticed⟩
      next => exact h
  next hleaving =>
    have hreported : launch.Reported := h.left (by rw [hleaving]; exact Forwarder.noConfusion)
    split
    next sent hsent =>
      rw [Launch.trySend_eq_some hsent]
      exact ⟨h.lines, fun _ => hreported, fun _ _ => hreported⟩
    next => exact ⟨h.lines, fun _ => hreported, h.noticed⟩
  next => exact h

/-- A reason for an exit notice stays. -/
theorem Launch.Reported.write (h : launch.Reported) (line : String) :
    (launch.write line).Reported := by
  unfold Launch.write
  split <;> exact h

theorem Launch.Reported.endStreams : launch.endStreams.Reported := .inr rfl

theorem Launch.Reported.forward (h : launch.Reported) : launch.forward.Reported := by
  unfold Launch.forward
  split
  · split
    · dsimp only
      split
      next sent hsent =>
        rw [Launch.trySend_eq_some hsent]
        exact h
      next => exact .inl rfl
    · split <;> exact h
  · split
    next sent hsent =>
      rw [Launch.trySend_eq_some hsent]
      exact h
    next => exact h
  · exact h

end Launches

/-- The server runs exactly when its child is stored, every launch is sound, and an
exit notice on its way to the application has its reason. -/
structure Launcher.Sound (launcher : Launcher) : Prop where
  running_iff : launcher.app.serverRunning = true ↔ launcher.child.isSome = true
  launches : ∀ launch ∈ launcher.launches, launch.Sound
  inbox : ∀ launch code, (launch, .serverExited code) ∈ launcher.inbox →
    ∃ state, launcher.launches[launch]? = some state ∧ state.Reported

section Steps

variable {launcher : Launcher}

/-- A launch that goes on by itself. -/
theorem Launcher.Sound.modify (h : launcher.Sound) (launch : Nat) {f : Launch → Launch}
    (hsound : ∀ state : Launch, state.Sound → (f state).Sound)
    (hreported : ∀ state : Launch, state.Reported → (f state).Reported) :
    Launcher.Sound { launcher with launches := launcher.launches.modify launch f } := by
  refine ⟨h.running_iff, ?_, ?_⟩
  · intro state hstate
    obtain ⟨i, hi⟩ := List.mem_iff_getElem?.mp hstate
    rw [List.getElem?_modify] at hi
    obtain ⟨old, hold, rfl⟩ := Option.map_eq_some_iff.mp hi
    have hmem := h.launches old (List.mem_of_getElem? hold)
    by_cases heq : launch = i
    · simpa [heq] using hsound old hmem
    · simpa [heq] using hmem
  · intro id code hcode
    obtain ⟨state, hstate, hreason⟩ := h.inbox id code hcode
    refine ⟨if launch = id then f state else state, ?_, ?_⟩
    · rw [List.getElem?_modify, hstate]
      rfl
    · by_cases heq : launch = id
      · rw [if_pos heq]
        exact hreported state hreason
      · rw [if_neg heq]
        exact hreason

theorem Launcher.Sound.child_none (h : launcher.Sound)
    (hidle : ¬ launcher.app.serverRunning = true) : launcher.child = none := by
  rw [h.running_iff, Bool.not_eq_true] at hidle
  exact Option.isSome_eq_false_iff.mp hidle |> Option.isNone_iff_eq_none.mp

theorem Launcher.Sound.handleStartServer (h : launcher.Sound) (surroundings : Surroundings) :
    (launcher.handleStartServer surroundings).Sound := by
  unfold Launcher.handleStartServer
  split
  next => exact h
  next hidle =>
    have hnone := h.child_none hidle
    have hstopped : ∀ app : App, app.serverRunning = launcher.app.serverRunning →
        (app.serverRunning = true ↔ launcher.child.isSome = true) := by
      intro app happ
      rw [happ]
      exact h.running_iff
    split
    next hblank =>
      refine ⟨hstopped _ ?_, h.launches, h.inbox⟩
      rw [AbixioUi.handleStartServer, if_neg hidle, if_pos hblank]
    next hblank =>
      split
      next error herror =>
        refine ⟨hstopped _ ?_, h.launches, h.inbox⟩
        rw [AbixioUi.handleStartServer, if_neg hidle, if_neg hblank, herror]
      next hspawned =>
        refine ⟨?_, ?_, ?_⟩
        · rw [AbixioUi.handleStartServer, if_neg hidle, if_neg hblank, hspawned]
          exact ⟨fun _ => rfl, fun _ => rfl⟩
        · intro launch hlaunch
          rcases List.mem_append.mp hlaunch with hlaunch | hlaunch
          · exact h.launches launch hlaunch
          · rw [List.mem_singleton.mp hlaunch]
            exact Launch.spawned_sound
        · intro id code hcode
          obtain ⟨state, hstate, hreason⟩ := h.inbox id code hcode
          exact ⟨state, (List.getElem?_append_left
            (List.getElem?_eq_some_iff.mp hstate).1).trans hstate, hreason⟩

theorem Launcher.Sound.take (h : launcher.Sound) (launch : Nat) : (launcher.take launch).Sound := by
  unfold Launcher.take
  split
  next => exact h
  next state hstate =>
    have hsound := h.launches state (List.mem_of_getElem? hstate)
    split
    next => exact h
    next message rest hslots =>
      have hbound := (List.getElem?_eq_some_iff.mp hstate).1
      refine ⟨h.running_iff, ?_, ?_⟩
      · intro other hother
        rcases List.mem_or_eq_of_mem_set hother with hother | rfl
        · exact h.launches other hother
        · refine ⟨hsound.lines, hsound.left, fun code hcode => hsound.noticed code ?_⟩
          rw [hslots]
          exact List.mem_cons_of_mem _ hcode
      · intro id code hcode
        have hreason : ∃ old, launcher.launches[id]? = some old ∧ old.Reported := by
          rcases List.mem_append.mp hcode with hcode | hcode
          · exact h.inbox id code hcode
          · obtain ⟨rfl, rfl⟩ := Prod.mk.inj (List.mem_singleton.mp hcode)
            exact ⟨state, hstate, hsound.noticed code (hslots ▸ List.mem_cons_self)⟩
        obtain ⟨old, hold, hreported⟩ := hreason
        by_cases heq : launch = id
        · subst heq
          obtain rfl : state = old := Option.some.inj (hstate.symm.trans hold)
          exact ⟨_, List.getElem?_set_self hbound, hreported⟩
        · exact ⟨old, by rw [List.getElem?_set_ne heq, hold], hreported⟩

/-- A log line changes the log alone. -/
theorem handleServerLogLine_keeps (line : String) :
    (launcher.handleServerLogLine line).app = launcher.app ∧
      (launcher.handleServerLogLine line).child = launcher.child ∧
      (launcher.handleServerLogLine line).launches = launcher.launches ∧
      (launcher.handleServerLogLine line).inbox = launcher.inbox := by
  simp only [Launcher.handleServerLogLine, and_self]

@[simp] theorem handleServerExited_running (code : Option Int) :
    (launcher.handleServerExited code).app.serverRunning = false := rfl

@[simp] theorem handleServerExited_child (code : Option Int) :
    (launcher.handleServerExited code).child = none := rfl

theorem Launcher.Sound.receive (h : launcher.Sound) (message : LogMessage) :
    (launcher.receive message).Sound := by
  cases message with
  | serverLogLine line =>
      obtain ⟨happ, hchild, hlaunches, hinbox⟩ := @handleServerLogLine_keeps launcher line
      rw [Launcher.receive]
      exact ⟨by rw [happ, hchild]; exact h.running_iff, by rw [hlaunches]; exact h.launches,
        by rw [hlaunches, hinbox]; exact h.inbox⟩
  | serverExited code =>
      have hiff : (launcher.handleServerExited code).app.serverRunning = true ↔
          (launcher.handleServerExited code).child.isSome = true := by simp
      exact ⟨hiff, h.launches, h.inbox⟩

/-- Every step keeps the launcher sound. -/
theorem Launcher.Sound.step (h : launcher.Sound) (event : LauncherEvent) :
    (launcher.step event).Sound := by
  cases event with
  | configure serverConfig => exact ⟨h.running_iff, h.launches, h.inbox⟩
  | startServer surroundings => exact h.handleStartServer surroundings
  | stopServer =>
      refine ⟨?_, h.launches, h.inbox⟩
      constructor <;> exact fun hfalse => Bool.noConfusion hfalse
  | write launch line => exact h.modify launch (fun _ hs => hs.write line) fun _ hr => hr.write line
  | endStreams launch =>
      exact h.modify launch (fun _ hs => hs.endStreams) fun _ _ => Launch.Reported.endStreams
  | forward launch => exact h.modify launch (fun _ hs => hs.forward) fun _ hr => hr.forward
  | take launch => exact h.take launch
  | deliver =>
      show launcher.deliver.Sound
      unfold Launcher.deliver
      split
      next => exact h
      next id message rest hinbox =>
        have hrest : Launcher.Sound { launcher with inbox := rest } :=
          ⟨h.running_iff, h.launches, fun id code hcode =>
            h.inbox id code (hinbox ▸ List.mem_cons_of_mem _ hcode)⟩
        exact hrest.receive message

theorem Launcher.start_sound (connections : List Connection) (serverConfig : ServerConfig)
    (startup : StartupOptions) : (Launcher.start connections serverConfig startup).Sound := by
  refine ⟨?_, by simp [Launcher.start], by simp [Launcher.start]⟩
  constructor <;> exact fun hfalse => Bool.noConfusion hfalse

/-! ## When the server is kept -/

/-- A step that keeps both what runs and what is stored loses nothing. -/
theorem Launcher.not_loses {before after : Launcher}
    (hrunning : before.app.serverRunning = true → after.app.serverRunning = true)
    (hchild : ∀ child, before.child = some child → after.child = some child) :
    ¬ before.Loses after := by
  rintro (⟨hbefore, hafter⟩ | ⟨child, hbefore, hafter⟩)
  · rw [hrunning hbefore] at hafter
    cases hafter
  · exact hafter (hchild child hbefore)

theorem Launcher.Sound.not_loses_startServer (h : launcher.Sound) (surroundings : Surroundings) :
    ¬ launcher.Loses (launcher.handleStartServer surroundings) := by
  by_cases hrunning : launcher.app.serverRunning = true
  · unfold Launcher.handleStartServer
    rw [if_pos hrunning]
    exact Launcher.not_loses (fun h => h) fun _ h => h
  · refine Launcher.not_loses (fun h => absurd h hrunning) fun child hchild => ?_
    rw [h.child_none hrunning] at hchild
    cases hchild

/-- An exit notice that finds a child stored drops it; that is allowed exactly if the
notice is due. -/
theorem Launcher.Sound.exitNoticed_iff (h : launcher.Sound) {child launch : Nat}
    {code : Option Int} {rest : List (Nat × LogMessage)} (hchild : launcher.child = some child)
    (hinbox : launcher.inbox = (launch, .serverExited code) :: rest) :
    launcher.ExitNoticed .deliver ↔ launcher.NoticeDue .deliver := by
  obtain ⟨state, hstate, hreason⟩ := h.inbox launch code (hinbox ▸ List.mem_cons_self)
  constructor
  · rintro ⟨child', code', rest', state', -, hchild', hinbox', hstate', hended⟩
    obtain rfl : child = child' := Option.some.inj (hchild.symm.trans hchild')
    obtain ⟨hhead, -⟩ := List.cons.inj (hinbox.symm.trans hinbox')
    obtain ⟨rfl, -⟩ := Prod.mk.inj hhead
    intro launch'' code'' rest'' hinbox'' child'' hchild''
    obtain rfl : launch = child'' := Option.some.inj (hchild.symm.trans hchild'')
    obtain ⟨hhead, -⟩ := List.cons.inj (hinbox.symm.trans hinbox'')
    refine ⟨(Prod.mk.inj hhead).1.symm, fun other hother _ => ?_⟩
    obtain rfl : state' = other := Option.some.inj (hstate'.symm.trans hother)
    exact hended
  · intro hdue
    obtain ⟨rfl, hopen⟩ := hdue launch code rest hinbox child hchild
    refine ⟨launch, code, rest, state, rfl, hchild, hinbox, hstate, ?_⟩
    rcases hreason with hgaveUp | hended
    · exact hopen state hstate hgaveUp
    · exact hended

/-- A sound launcher keeps its server in a step exactly if an exit notice that it
handles there is due. -/
theorem Launcher.Sound.keepsServer_iff (h : launcher.Sound) (event : LauncherEvent) :
    launcher.KeepsServer event ↔ launcher.NoticeDue event := by
  have hafter := (h.step event).running_iff
  have hkeeps : ¬ launcher.Loses (launcher.step event) → launcher.KeepsServer event :=
    fun hlost => ⟨fun hloses => absurd hloses hlost, hafter⟩
  have hsame : ∀ after : Launcher, after.app.serverRunning = launcher.app.serverRunning →
      after.child = launcher.child → ¬ launcher.Loses after := by
    intro after hrunning hchild
    exact Launcher.not_loses (fun hbefore => hrunning.trans hbefore)
      fun child hbefore => hchild.trans hbefore
  cases event with
  | stopServer => exact ⟨fun _ => trivial, fun _ => ⟨fun _ => .inl rfl, hafter⟩⟩
  | startServer surroundings =>
      exact ⟨fun _ => trivial, fun _ => hkeeps (h.not_loses_startServer surroundings)⟩
  | configure _ | write _ _ | endStreams _ | forward _ =>
      exact ⟨fun _ => trivial, fun _ => hkeeps (hsame _ rfl rfl)⟩
  | take launch =>
      refine ⟨fun _ => trivial, fun _ => hkeeps ?_⟩
      show ¬ launcher.Loses (launcher.take launch)
      unfold Launcher.take
      split
      · exact hsame _ rfl rfl
      · split <;> exact hsame _ rfl rfl
  | deliver =>
      cases hinbox : launcher.inbox with
      | nil =>
          have hstep : launcher.step .deliver = launcher := by
            simp only [Launcher.step, Launcher.deliver, hinbox]
          refine ⟨fun _ launch code rest hcons => ?_, fun _ => hkeeps ?_⟩
          · rw [hinbox] at hcons
            cases hcons
          · rw [hstep]
            exact hsame _ rfl rfl
      | cons head rest =>
          obtain ⟨launch, message⟩ := head
          have hstep : launcher.step .deliver =
              Launcher.receive { launcher with inbox := rest } message := by
            simp only [Launcher.step, Launcher.deliver, hinbox]
          cases message with
          | serverLogLine line =>
              refine ⟨fun _ launch code rest hcons => ?_, fun _ => hkeeps ?_⟩
              · rw [hinbox] at hcons
                cases hcons
              · obtain ⟨happ, hchild, -⟩ :=
                  @handleServerLogLine_keeps { launcher with inbox := rest } line
                rw [hstep]
                exact hsame _ (congrArg App.serverRunning happ) hchild
          | serverExited code =>
              cases hchild : launcher.child with
              | none =>
                  refine ⟨fun _ _ _ _ _ child hsome => ?_, fun _ => hkeeps ?_⟩
                  · rw [hchild] at hsome
                    cases hsome
                  · refine Launcher.not_loses (fun hrunning => ?_) fun child hsome => ?_
                    · rw [h.running_iff, hchild] at hrunning
                      cases hrunning
                    · rw [hchild] at hsome
                      cases hsome
              | some child =>
                  have hlost : launcher.Loses (launcher.step .deliver) := by
                    rw [hstep]
                    refine .inr ⟨child, hchild, ?_⟩
                    rw [Launcher.receive, handleServerExited_child]
                    exact Option.some_ne_none child ∘ Eq.symm
                  rw [← h.exitNoticed_iff hchild hinbox]
                  constructor
                  · intro hkept
                    exact (hkept.lost hlost).resolve_left LauncherEvent.noConfusion
                  · exact fun hnoticed => ⟨fun _ => .inr hnoticed, hafter⟩

end Steps

def dataVolume : ServerConfig := { noServer with volumes := ["/data".toList] }

/-- The server is stopped and started again before the first launch reported its end. -/
def restartedServer : List LauncherEvent :=
  [.startServer calm, .stopServer, .startServer calm, .endStreams 0, .forward 0, .forward 0,
    .take 0, .deliver]

end AbixioUi
