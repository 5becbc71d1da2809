import AbixioUi.Browse.Chosen

/-! # The tests page

The end-to-end tests run against the connected server. An application that was started
to run them begins once a server has answered the probe, and writes a report of every run
that ends. A report is made when its run ends, from what the page holds by then.
-/

namespace AbixioUi

open Foundation

/-! ## Tests and reports -/

def APP_VERSION : String := "0.2.0"

structure TestResult where
  name : String
  passed : Bool
  detail : Option String
deriving DecidableEq, Repr

structure TestReport where
  appVersion : String
  endpoint : Str
  startedAt : Str
  finishedAt : Str
  total : Nat
  passed : Nat
  failed : Nat
  results : List TestResult
deriving DecidableEq, Repr

/-- A run of the tests, as it was begun. -/
structure TestRun where
  client : S3Client
  endpoint : Str
  withAdmin : Bool
  startedAt : Str
  automatic : Bool
deriving DecidableEq, Repr

structure TestOptions where
  autoRunTests : Bool
  testReportPath : Option Str

structure TestPage where
  testResults : List TestResult
  testRunning : Bool
  testProgress : String
  autoRunTests : Bool
  autoTestStarted : Bool
  testReportPath : Option Str
  testStartedAt : Option Str

def TestPage.new (options : TestOptions) : TestPage where
  testResults := []
  testRunning := false
  testProgress := ""
  autoRunTests := options.autoRunTests
  autoTestStarted := false
  testReportPath := options.testReportPath
  testStartedAt := none

inductive TestTask
  | runTests (run : TestRun)
  | autoStart
  | writeReport (path : Str) (report : TestReport)
deriving DecidableEq, Repr

def TestTask.run : TestTask → Option TestRun
  | .runTests run => some run
  | _ => none

/-- What a task ends with: the results of a run, or whether a report was written. -/
structure TestReplies where
  results : List TestResult
  written : Except String Unit

/-- The browser, the tests page and its tasks in flight. The runs that were begun and the
reports of those that ended are recorded. -/
structure TestWorld where
  world : BrowserWorld
  page : TestPage
  tasks : List TestTask
  begun : List TestRun
  reported : List (Traced TestRun TestReport)

namespace TestWorld

/-! ## Handlers -/

section Handlers

variable (tests : TestWorld)

/-- The run that would begin now. -/
def nextRun (automatic : Bool) (now : Str) : TestRun where
  client := tests.world.browser.app.client
  endpoint := tests.world.browser.app.endpoint
  withAdmin := tests.world.browser.isAbixio && tests.world.browser.hasAdmin
  startedAt := now
  automatic := automatic

def beginTests (automatic : Bool) (now : Str) : TestWorld :=
  if tests.page.testRunning ∨ tests.world.browser.app.endpoint = [] then tests
  else
    { tests with
      page := { tests.page with
        testRunning := true
        testResults := []
        testProgress := "running tests..."
        testStartedAt := some now }
      tasks := tests.tasks ++ [.runTests (tests.nextRun automatic now)]
      begun := tests.begun ++ [tests.nextRun automatic now] }

def handleRunTests (now : Str) : TestWorld := tests.beginTests false now

def handleAutoStartTests (now : Str) : TestWorld :=
  if tests.page.autoRunTests && !tests.page.autoTestStarted then
    { tests with page := { tests.page with autoTestStarted := true } }.beginTests true now
  else tests

/-- The report of a run that ends now. -/
def report (results : List TestResult) (now : Str) : TestReport where
  appVersion := APP_VERSION
  endpoint := tests.world.browser.app.endpoint
  startedAt := tests.page.testStartedAt.getD now
  finishedAt := now
  total := results.length
  passed := results.countP (·.passed)
  failed := results.length - results.countP (·.passed)
  results := results

def completed (results : List TestResult) : TestPage :=
  { tests.page with
    testRunning := false
    testProgress := "done: " ++ toString (results.countP (·.passed)) ++ "/" ++
      toString results.length ++ " passed"
    testResults := results }

def handleTestsComplete (run : TestRun) (results : List TestResult) (now : Str) : TestWorld :=
  match tests.page.testReportPath with
  | some path =>
      { tests with
        page := tests.completed results
        tasks := tests.tasks ++ [.writeReport path (tests.report results now)]
        reported := tests.reported ++ [⟨tests.report results now, run⟩] }
  | none => { tests with page := tests.completed results }

def handleTestReportWritten (result : Except String Unit) : TestWorld :=
  match result with
  | .ok () => tests
  | .error error =>
      let browser := tests.world.browser.withError ("Failed to write test report: " ++ error)
      { tests with world := { tests.world with browser := browser } }

/-- The handler of what a task ends with. -/
def finish (task : TestTask) (now : Str) (replies : TestReplies) : TestWorld :=
  match task with
  | .runTests run => tests.handleTestsComplete run replies.results now
  | .autoStart => tests.handleAutoStartTests now
  | .writeReport _ _ => tests.handleTestReportWritten replies.written

/-- The answer of a probe starts the tests where nothing has started them yet. -/
def autoStarts (event : BrowserEvent) : List TestTask :=
  match tests.world.received event with
  | some (_, .abixioDetected _) =>
      if tests.page.autoRunTests && !tests.page.autoTestStarted then [.autoStart] else []
  | _ => []

end Handlers

end TestWorld

/-! ## Steps -/

inductive TestEvent
  | browse (event : BrowserEvent)
  | runTests (now : Str)
  | finish (index : Nat) (now : Str) (replies : TestReplies)

namespace TestWorld

def step (platform : Platform) (formats : DocumentFormats) (tests : TestWorld) :
    TestEvent → TestWorld
  | .browse event =>
      { tests with
        world := tests.world.step platform formats event
        tasks := tests.tasks ++ tests.autoStarts event }
  | .runTests now => tests.handleRunTests now
  | .finish index now replies =>
      match tests.tasks[index]? with
      | some task => { tests with tasks := tests.tasks.eraseIdx index }.finish task now replies
      | none => tests

def init (connections : List Connection) (serverConfig : ServerConfig)
    (startup : StartupOptions) (options : TestOptions) (server : TagStore) : TestWorld where
  world := .start connections serverConfig startup server
  page := .new options
  tasks := []
  begun := []
  reported := []

/-! ## Runs and reports -/

/-- The runs in flight. -/
def running (tests : TestWorld) : List TestRun := tests.tasks.filterMap TestTask.run

/-- A report tells when its run was begun, and counts its results. -/
structure Tells (report : TestReport) (run : TestRun) : Prop where
  started : report.startedAt = run.startedAt
  total : report.total = report.results.length
  passed : report.passed = report.results.countP (·.passed)
  sum : report.passed + report.failed = report.total

/-- At most one run is in flight, and exactly while the page says so. Where reports are
written, every run that ended has its report, in order, and the last one begun is the one
in flight. Runs go to the server that was shown when they were begun, and at most one of
them began by itself. -/
structure Accounted (tests : TestWorld) : Prop where
  one : tests.running.length = if tests.page.testRunning then 1 else 0
  timed : ∀ run ∈ tests.running, tests.page.testStartedAt = some run.startedAt
  ended : tests.page.testReportPath.isSome = true →
    tests.begun = tests.reported.map (·.asked) ++ tests.running
  tells : ∀ report ∈ tests.reported, Tells report.value report.asked
  connected : ∀ run ∈ tests.begun,
    run.endpoint ≠ [] ∧ run.client.endpoint = trimEndMatches '/' run.endpoint
  automatic : tests.begun.countP (·.automatic) ≤ if tests.page.autoTestStarted then 1 else 0
  allowed : tests.page.autoTestStarted = true → tests.page.autoRunTests = true

/-! ## One step -/

section Steps

variable (platform : Platform) (formats : DocumentFormats) {tests after : TestWorld}

/-- What the page and the records say, with the runs in flight: what a step can change. -/
theorem Accounted.of_same (h : tests.Accounted) (hrunning : after.running = tests.running)
    (hpage : after.page = tests.page) (hbegun : after.begun = tests.begun)
    (hreported : after.reported = tests.reported) : after.Accounted where
  one := by rw [hrunning, hpage]; exact h.one
  timed := by rw [hrunning, hpage]; exact h.timed
  ended := by rw [hrunning, hpage, hbegun, hreported]; exact h.ended
  tells := by rw [hreported]; exact h.tells
  connected := by rw [hbegun]; exact h.connected
  automatic := by rw [hpage, hbegun]; exact h.automatic
  allowed := by rw [hpage]; exact h.allowed

theorem running_append_autoStarts (event : BrowserEvent) :
    (tests.tasks ++ tests.autoStarts event).filterMap TestTask.run = tests.running := by
  have hnone : (tests.autoStarts event).filterMap TestTask.run = [] := by
    unfold autoStarts
    split
    next =>
      split
      next => rfl
      next => rfl
    next => rfl
  rw [List.filterMap_append, hnone, List.append_nil]
  rfl

theorem browse_accounted (h : tests.Accounted) (event : BrowserEvent) :
    (tests.step platform formats (.browse event)).Accounted :=
  h.of_same (running_append_autoStarts event) rfl rfl rfl

/-- A run begins only where none is in flight and an endpoint is shown. -/
theorem Accounted.beginTests (h : tests.Accounted) (hlinked : tests.world.browser.app.Linked)
    {automatic : Bool} (now : Str)
    (hroom : tests.begun.countP (·.automatic) + (if automatic then 1 else 0) ≤
      if tests.page.autoTestStarted then 1 else 0) :
    (tests.beginTests automatic now).Accounted := by
  unfold TestWorld.beginTests
  split
  next => exact h
  next hfree =>
    obtain ⟨hidle, hshown⟩ := not_or.mp hfree
    have hnone : tests.running = [] := by
      apply List.length_eq_zero_iff.mp
      rw [h.one, if_neg hidle]
    have hrunning : (tests.tasks ++ [TestTask.runTests (tests.nextRun automatic now)]).filterMap
        TestTask.run = [tests.nextRun automatic now] := by
      rw [List.filterMap_append]
      exact congrArg (· ++ [tests.nextRun automatic now]) hnone
    refine
      { one := congrArg List.length hrunning
        timed := fun run hmem => ?_
        ended := fun hpath => ?_
        tells := h.tells
        connected := fun run hmem => ?_
        automatic := ?_
        allowed := h.allowed }
    · have hnew : run ∈ [tests.nextRun automatic now] := by
        rw [← hrunning]
        exact hmem
      rw [List.mem_singleton.mp hnew]
      rfl
    · show _ = _ ++ List.filterMap TestTask.run _
      rw [hrunning, h.ended hpath, hnone, List.append_nil]
    · rcases List.mem_append.mp hmem with hbefore | hnew
      · exact h.connected run hbefore
      · rw [List.mem_singleton.mp hnew]
        exact ⟨hshown, hlinked hshown⟩
    · rw [List.countP_append, List.countP_singleton]
      exact hroom

theorem Accounted.handleRunTests (h : tests.Accounted)
    (hlinked : tests.world.browser.app.Linked) (now : Str) :
    (tests.handleRunTests now).Accounted :=
  h.beginTests hlinked now h.automatic

/-- The first automatic start takes the only place for an automatic run. -/
theorem Accounted.handleAutoStartTests (h : tests.Accounted)
    (hlinked : tests.world.browser.app.Linked) (now : Str) :
    (tests.handleAutoStartTests now).Accounted := by
  unfold TestWorld.handleAutoStartTests
  split
  next hstarts =>
    obtain ⟨hauto, hfirst⟩ := Bool.and_eq_true_iff.mp hstarts
    have hunstarted : tests.page.autoTestStarted = false := by simpa using hfirst
    have hcount : tests.begun.countP (·.automatic) = 0 := by
      have hle := h.automatic
      rw [hunstarted] at hle
      exact Nat.le_zero.mp hle
    have hstarted : Accounted
        { tests with page := { tests.page with autoTestStarted := true } } :=
      { one := h.one
        timed := h.timed
        ended := h.ended
        tells := h.tells
        connected := h.connected
        automatic := by rw [hcount]; exact Nat.zero_le _
        allowed := fun _ => hauto }
    refine hstarted.beginTests hlinked now ?_
    show tests.begun.countP (·.automatic) + 1 ≤ 1
    rw [hcount]
  next => exact h

/-- The report of the run in flight tells of it. -/
theorem Accounted.report_tells (h : tests.Accounted) {run : TestRun}
    (hrunning : run ∈ tests.running) (results : List TestResult) (now : Str) :
    Tells (tests.report results now) run where
  started := by
    show tests.page.testStartedAt.getD now = run.startedAt
    rw [h.timed run hrunning]
    rfl
  total := rfl
  passed := rfl
  sum := Nat.add_sub_cancel' List.countP_le_length

/-- A run that ends leaves none in flight, and its report if one is asked for. -/
theorem Accounted.handleTestsComplete (h : tests.Accounted) {index : Nat} {run : TestRun}
    (hat : tests.tasks[index]? = some (.runTests run)) (results : List TestResult) (now : Str) :
    ({ tests with tasks := tests.tasks.eraseIdx index }.handleTestsComplete run results
      now).Accounted := by
  have honly : tests.running.length ≤ 1 := by
    rw [h.one]
    split
    next => exact Nat.le_refl 1
    next => exact Nat.zero_le 1
  obtain ⟨hrunning, hrest⟩ := filterMap_eraseIdx_of_only hat (rfl : TestTask.run _ = _) honly
  have hmem : run ∈ tests.running := by
    rw [show tests.running = [run] from hrunning]
    exact List.mem_singleton_self run
  have htells : Tells
      ({ tests with tasks := tests.tasks.eraseIdx index }.report results now) run :=
    h.report_tells hmem results now
  unfold TestWorld.handleTestsComplete
  cases hpath : tests.page.testReportPath with
  | none =>
      refine
        { one := congrArg List.length hrest
          timed := fun other hother => ?_
          ended := fun hsome => ?_
          tells := h.tells
          connected := h.connected
          automatic := h.automatic
          allowed := h.allowed }
      · have hempty : other ∈ ([] : List TestRun) := hrest ▸ hother
        cases hempty
      · have hnone : tests.page.testReportPath.isSome = true := hsome
        rw [hpath] at hnone
        cases hnone
  | some path =>
      have hafter : (tests.tasks.eraseIdx index ++
          [TestTask.writeReport path ({ tests with
            tasks := tests.tasks.eraseIdx index }.report results now)]).filterMap
            TestTask.run = [] := by
        rw [List.filterMap_append, hrest]
        rfl
      refine
        { one := congrArg List.length hafter
          timed := fun other hother => ?_
          ended := fun hsome => ?_
          tells := fun report hreport => ?_
          connected := h.connected
          automatic := h.automatic
          allowed := h.allowed }
      · have hempty : other ∈ ([] : List TestRun) := hafter ▸ hother
        cases hempty
      · show tests.begun = (tests.reported ++ _).map _ ++ List.filterMap TestTask.run _
        rw [hafter, List.map_append, List.append_nil, h.ended (by rw [hpath]; rfl),
          show tests.running = [run] from hrunning]
        rfl
      · rcases List.mem_append.mp hreport with hbefore | hnew
        · exact h.tells report hbefore
        · rw [List.mem_singleton.mp hnew]
          exact htells

theorem Accounted.finish (h : tests.Accounted) (hlinked : tests.world.browser.app.Linked)
    (index : Nat) (now : Str) (replies : TestReplies) :
    (tests.step platform formats (.finish index now replies)).Accounted := by
  simp only [step]
  cases hat : tests.tasks[index]? with
  | none => exact h
  | some task =>
      have hquiet : task.run = none →
          Accounted { tests with tasks := tests.tasks.eraseIdx index } := fun hnone =>
        h.of_same (filterMap_eraseIdx_of_none hat hnone) rfl rfl rfl
      cases task with
      | runTests run => exact h.handleTestsComplete hat replies.results now
      | autoStart => exact (hquiet rfl).handleAutoStartTests hlinked now
      | writeReport path report =>
          have herased := hquiet rfl
          cases hwritten : replies.written with
          | ok _ =>
              simp only [TestWorld.finish, TestWorld.handleTestReportWritten, hwritten]
              exact herased
          | error error =>
              simp only [TestWorld.finish, TestWorld.handleTestReportWritten, hwritten]
              exact herased.of_same rfl rfl rfl rfl

theorem step_accounted (h : tests.Accounted) (hlinked : tests.world.browser.app.Linked)
    (event : TestEvent) : (tests.step platform formats event).Accounted := by
  cases event with
  | browse event => exact browse_accounted platform formats h event
  | runTests now => exact h.handleRunTests hlinked now
  | finish index now replies => exact h.finish platform formats hlinked index now replies

theorem beginTests_world (automatic : Bool) (now : Str) :
    (tests.beginTests automatic now).world = tests.world := by
  unfold TestWorld.beginTests
  split
  next => rfl
  next => rfl

theorem handleAutoStartTests_world (now : Str) :
    (tests.handleAutoStartTests now).world = tests.world := by
  unfold TestWorld.handleAutoStartTests
  split
  next => exact beginTests_world true now
  next => rfl

/-- What ends on the tests page leaves what is connected alone. -/
theorem finish_link (index : Nat) (now : Str) (replies : TestReplies) :
    (tests.step platform formats (.finish index now replies)).world.browser.app.link =
      tests.world.browser.app.link := by
  simp only [step]
  cases tests.tasks[index]? with
  | none => rfl
  | some task =>
      cases task with
      | runTests run =>
          simp only [TestWorld.finish, TestWorld.handleTestsComplete]
          split
          next => rfl
          next => rfl
      | autoStart =>
          exact congrArg (fun world => world.browser.app.link) (handleAutoStartTests_world now)
      | writeReport path report =>
          simp only [TestWorld.finish, TestWorld.handleTestReportWritten]
          split
          next => rfl
          next => rfl

theorem step_linked (hlinked : tests.world.browser.app.Linked) (event : TestEvent) :
    (tests.step platform formats event).world.browser.app.Linked := by
  cases event with
  | browse event =>
      show (tests.world.step platform formats event).browser.app.Linked
      rw [step_browser]
      unfold BrowserWorld.handle
      cases tests.world.received event with
      | none => exact hlinked
      | some received =>
          exact browser_update_linked platform received.1 formats hlinked received.2
  | runTests now =>
      have hworld : (tests.step platform formats (.runTests now)).world = tests.world :=
        beginTests_world false now
      rw [hworld]
      exact hlinked
  | finish index now replies =>
      exact hlinked.of_link (finish_link platform formats index now replies)

end Steps

/-! ## The server that a report names -/

/-- Every report names the endpoint that its run was begun for, and so would the report
of a run that ended now. -/
structure ReportsRight (tests : TestWorld) : Prop where
  written : ∀ report ∈ tests.reported, report.value.endpoint = report.asked.endpoint
  due : tests.page.testReportPath.isSome = true → ∀ run ∈ tests.running,
    run.endpoint = tests.world.browser.app.endpoint

/-- The endpoint that an event gets shown. -/
def shown (tests : TestWorld) (event : BrowserEvent) : Option Str :=
  match tests.world.received event with
  | some (surroundings, message) => tests.world.browser.shownAfter surroundings message
  | none => none

/-- While a run is in flight that will be reported, no other endpoint gets shown. -/
def Stays (tests : TestWorld) : TestEvent → Prop
  | .browse event =>
      tests.page.testReportPath.isSome = true → tests.running ≠ [] →
        ∀ endpoint, tests.shown event = some endpoint →
          endpoint = tests.world.browser.app.endpoint
  | _ => True

section Reports

variable (platform : Platform) (formats : DocumentFormats) {tests after : TestWorld}

theorem browse_endpoint (event : BrowserEvent) :
    (tests.step platform formats (.browse event)).world.browser.app.endpoint =
      (tests.shown event).getD tests.world.browser.app.endpoint := by
  show (tests.world.step platform formats event).browser.app.endpoint = _
  rw [step_browser]
  unfold BrowserWorld.handle shown
  cases tests.world.received event with
  | none => rfl
  | some received => exact browser_update_shown platform received.1 formats received.2

/-- What is browsed keeps the reports right exactly if the shown endpoint stays. -/
theorem browse_right_iff (h : tests.ReportsRight) (event : BrowserEvent) :
    (tests.step platform formats (.browse event)).ReportsRight ↔
      tests.Stays (.browse event) := by
  have hrunning : (tests.step platform formats (.browse event)).running = tests.running :=
    running_append_autoStarts event
  have hendpoint := @browse_endpoint platform formats tests event
  constructor
  · intro hafter hpath hsome endpoint hshown
    obtain ⟨run, hmem⟩ := List.exists_mem_of_ne_nil _ hsome
    rw [hshown, Option.getD_some] at hendpoint
    rw [← h.due hpath run hmem, ← hendpoint]
    exact (hafter.due hpath run (hrunning ▸ hmem)).symm
  · intro hstays
    refine ⟨h.written, fun hpath run hmem => ?_⟩
    rw [hrunning] at hmem
    rw [h.due hpath run hmem, hendpoint]
    cases hshown : tests.shown event with
    | none => rfl
    | some endpoint => exact (hstays hpath (List.ne_nil_of_mem hmem) endpoint hshown).symm

/-- A run that begins is one for the endpoint that is shown. -/
theorem ReportsRight.beginTests (h : tests.ReportsRight) (automatic : Bool) (now : Str) :
    (tests.beginTests automatic now).ReportsRight := by
  unfold TestWorld.beginTests
  split
  next => exact h
  next =>
    refine ⟨h.written, fun hpath run hmem => ?_⟩
    have hsplit : run ∈ tests.running ++ [tests.nextRun automatic now] := by
      unfold running at hmem
      rw [List.filterMap_append] at hmem
      exact hmem
    rcases List.mem_append.mp hsplit with hbefore | hnew
    · exact h.due hpath run hbefore
    · rw [List.mem_singleton.mp hnew]
      rfl

theorem ReportsRight.erased (h : tests.ReportsRight) (index : Nat) :
    ReportsRight { tests with tasks := tests.tasks.eraseIdx index } where
  written := h.written
  due := fun hpath run hmem =>
    h.due hpath run (((List.eraseIdx_sublist tests.tasks index).filterMap _).subset hmem)

/-- The report of a run in flight names its endpoint where it is due to. -/
theorem ReportsRight.handleTestsComplete (h : tests.ReportsRight) {index : Nat} {run : TestRun}
    (hat : tests.tasks[index]? = some (.runTests run)) (results : List TestResult) (now : Str) :
    ({ tests with tasks := tests.tasks.eraseIdx index }.handleTestsComplete run results
      now).ReportsRight := by
  have herased := h.erased index
  have hmem : run ∈ tests.running :=
    List.mem_filterMap.mpr ⟨.runTests run, List.mem_of_getElem? hat, rfl⟩
  unfold TestWorld.handleTestsComplete
  cases hpath : tests.page.testReportPath with
  | none =>
      refine ⟨h.written, fun hsome _ _ => ?_⟩
      have hnone : tests.page.testReportPath.isSome = true := hsome
      rw [hpath] at hnone
      cases hnone
  | some path =>
      refine ⟨fun report hreport => ?_, fun hsome other hother => ?_⟩
      · rcases List.mem_append.mp hreport with hbefore | hnew
        · exact h.written report hbefore
        · rw [List.mem_singleton.mp hnew]
          exact (h.due (by rw [hpath]; rfl) run hmem).symm
      · unfold running at hother
        rw [List.filterMap_append, List.filterMap_cons_none rfl, List.filterMap_nil,
          List.append_nil] at hother
        exact herased.due hsome other hother

theorem ReportsRight.finish (h : tests.ReportsRight) (index : Nat) (now : Str)
    (replies : TestReplies) :
    (tests.step platform formats (.finish index now replies)).ReportsRight := by
  simp only [step]
  cases hat : tests.tasks[index]? with
  | none => exact h
  | some task =>
      cases task with
      | runTests run => exact h.handleTestsComplete hat replies.results now
      | autoStart =>
          simp only [TestWorld.finish, TestWorld.handleAutoStartTests]
          split
          next =>
            have hstarted : ReportsRight
                { tests with
                  page := { tests.page with autoTestStarted := true }
                  tasks := tests.tasks.eraseIdx index } :=
              ⟨(h.erased index).written, (h.erased index).due⟩
            exact hstarted.beginTests true now
          next => exact h.erased index
      | writeReport path report =>
          simp only [TestWorld.finish, TestWorld.handleTestReportWritten]
          split
          next => exact h.erased index
          next => exact ⟨(h.erased index).written, (h.erased index).due⟩

theorem step_right_iff (h : tests.ReportsRight) (event : TestEvent) :
    (tests.step platform formats event).ReportsRight ↔ tests.Stays event := by
  cases event with
  | browse event => exact browse_right_iff platform formats h event
  | runTests now => exact iff_of_true (h.beginTests false now) trivial
  | finish index now replies =>
      exact iff_of_true (h.finish platform formats index now replies) trivial

end Reports

/-! ## Runs of the application -/

section Results

variable (platform : Platform) (formats : DocumentFormats) (connections : List Connection)
  (serverConfig : ServerConfig) (startup : StartupOptions) (options : TestOptions)
  (server : TagStore)

theorem init_linked :
    (init connections serverConfig startup options server).world.browser.app.Linked := by
  have hbrowser : (init connections serverConfig startup options server).world.browser.app =
      (App.new connections serverConfig startup).1 := by
    simp [init, BrowserWorld.start, Browser.new]
  rw [hbrowser]
  exact new_linked connections serverConfig startup

theorem init_accounted : (init connections serverConfig startup options server).Accounted where
  one := rfl
  timed := fun _ hmem => by cases hmem
  ended := fun _ => rfl
  tells := fun _ hmem => by cases hmem
  connected := fun _ hmem => by cases hmem
  automatic := Nat.zero_le _
  allowed := fun hstarted => by cases hstarted

theorem init_right : (init connections serverConfig startup options server).ReportsRight where
  written := fun _ hmem => by cases hmem
  due := fun _ _ hmem => by cases hmem

/-- In every state of every run at most one run of the tests is in flight, the page says
so exactly then, every run that ended has its report in order where reports are written,
none was begun without an endpoint shown or against another client than its own, and at
most one began by itself, in an application that was started to. -/
theorem test_runs_accounted (events : List TestEvent) :
    (run (step platform formats) (init connections serverConfig startup options server)
      events).Accounted := by
  have hstep : ∀ tests event, Accounted tests ∧ tests.world.browser.app.Linked → True →
      (tests.step platform formats event).Accounted ∧
        (tests.step platform formats event).world.browser.app.Linked :=
    fun tests event h _ => ⟨step_accounted platform formats h.1 h.2 event,
      step_linked platform formats h.2 event⟩
  have hstart := And.intro (init_accounted connections serverConfig startup options server)
    (init_linked connections serverConfig startup options server)
  exact (run_invariant _ hstep hstart (along_true _ events)).1

/-- In every state of a run the reports name the servers of their runs, and would if a run
ended now, exactly if no other endpoint gets shown while a run is in flight that will be
reported. -/
theorem test_reports_exact (events : List TestEvent) :
    (∀ earlier, earlier <+: events →
      (run (step platform formats) (init connections serverConfig startup options server)
        earlier).ReportsRight) ↔
      Along (step platform formats) Stays
        (init connections serverConfig startup options server) events :=
  forall_prefix_iff_along (fun _ => True) ReportsRight (fun _ _ _ _ => trivial)
    (fun _ event _ _ h => step_right_iff platform formats h event) trivial
    (init_right connections serverConfig startup options server) (along_true _ _)

end Results

/-- The tests are run, and another server is connected to before they end. -/
def testsLeftBehind : List TestEvent :=
  [.runTests "noon".toList,
    .browse (.user calm (.app (.connectTo "work".toList))),
    .finish 0 "one".toList ⟨[⟨"list", true, none⟩, ⟨"put", false, some "refused"⟩], .ok ()⟩]

/-- The report counts the results of the run, and names the server that was left for. -/
example :
    let work : Connection := ⟨"work".toList, "http://b".toList, "us-east-1".toList⟩
    let tests := run (step .unix unreadable)
      (init [work] oneVolume ⟨some "http://a".toList, none⟩ ⟨true, some "r.json".toList⟩
        fun _ _ => ⟨∅, 0⟩) testsLeftBehind
    tests.reported.map (fun report => (report.value.passed, report.value.failed,
      report.value.endpoint, report.asked.endpoint)) =
        [(1, 1, "http://b".toList, "http://a".toList)] := by
  decide

end TestWorld

end AbixioUi
