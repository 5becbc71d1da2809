import AbixioUi.App.SavedConnections
import AbixioUi.Foundation.Numerals
import AbixioUi.Foundation.Rows

/-! # What a server is started with

The page of the launcher edits the settings of the server, and the folder of a volume is
picked in a dialog that notes down a position. Starting the server makes a command line
of the settings, from which each of them can be read back.
-/

namespace AbixioUi.Config

open Foundation

/-! ## The command line -/

/-- An option that is given where its value is not empty. -/
def optionArgs (name value : Str) : List Str := if value = [] then [] else [name, value]

def volumeArgs (volumes : List Str) : List Str :=
  volumes.flatMap fun volume => optionArgs "--volumes".toList (trim volume)

def authArgs (noAuth : Bool) : List Str := if noAuth then ["--no-auth".toList] else []

def workerArgs (mrfWorkers : Nat) : List Str :=
  if 0 < mrfWorkers then ["--mrf-workers".toList, natToStr mrfWorkers] else []

def healTail (config : ServerConfig) : List Str :=
  optionArgs "--heal-interval".toList config.healInterval ++ workerArgs config.mrfWorkers

def scanTail (config : ServerConfig) : List Str :=
  optionArgs "--scan-interval".toList config.scanInterval ++ healTail config

def authTail (config : ServerConfig) : List Str := authArgs config.noAuth ++ scanTail config

def volumeTail (config : ServerConfig) : List Str :=
  volumeArgs config.volumes ++ authTail config

/-- The words of the command line, each tail being what is pushed from there on. -/
def buildArgs (config : ServerConfig) : List Str :=
  optionArgs "--listen".toList config.listen ++ volumeTail config

/-- The volumes without the space around them, and without those that are nothing else. -/
def realVolumes (volumes : List Str) : List Str := (volumes.map trim).filter (· ≠ [])

/-- The settings that a server is started with. -/
structure LaunchSettings where
  listen : Str
  volumes : List Str
  noAuth : Bool
  scanInterval : Str
  healInterval : Str
  mrfWorkers : Nat
deriving DecidableEq, Repr

def ServerConfig.launchSettings (config : ServerConfig) : LaunchSettings where
  listen := config.listen
  volumes := realVolumes config.volumes
  noAuth := config.noAuth
  scanInterval := config.scanInterval
  healInterval := config.healInterval
  mrfWorkers := config.mrfWorkers

/-! ## Reading the command line -/

section Args

variable {name other v w : Str} {rest rest' : List Str}

/-- What an option may be followed by: nothing of its own name. -/
def Ends (name : Str) (rest : List Str) : Prop := rest.head? ≠ some name

theorem Ends.optionArgs (hne : other ≠ name) (h : Ends name rest) :
    Ends name (optionArgs other v ++ rest) := by
  unfold Config.optionArgs
  split
  next => exact h
  next =>
    intro hhead
    exact hne (Option.some.inj hhead)

theorem Ends.authArgs (hne : "--no-auth".toList ≠ name) (h : Ends name rest) (noAuth : Bool) :
    Ends name (authArgs noAuth ++ rest) := by
  cases noAuth with
  | false => exact h
  | true =>
      intro hhead
      exact hne (Option.some.inj hhead)

theorem Ends.workerArgs (hne : "--mrf-workers".toList ≠ name) (mrfWorkers : Nat) :
    Ends name (workerArgs mrfWorkers) := by
  unfold Config.workerArgs
  split
  next =>
    intro hhead
    exact hne (Option.some.inj hhead)
  next =>
    intro hhead
    cases hhead

theorem Ends.volumeArgs (hne : "--volumes".toList ≠ name) (h : Ends name rest)
    (volumes : List Str) : Ends name (volumeArgs volumes ++ rest) := by
  induction volumes with
  | nil => exact h
  | cons volume volumes ih =>
      rw [Config.volumeArgs, List.flatMap_cons, List.append_assoc]
      exact ih.optionArgs hne

/-- An option is read back from what it starts. -/
theorem optionArgs_append_inj (h : Ends name rest) (h' : Ends name rest') :
    optionArgs name v ++ rest = optionArgs name w ++ rest' ↔ v = w ∧ rest = rest' := by
  constructor
  · intro heq
    unfold optionArgs at heq
    by_cases hv : v = []
    · by_cases hw : w = []
      · rw [if_pos hv, if_pos hw] at heq
        exact ⟨hv.trans hw.symm, heq⟩
      · rw [if_pos hv, if_neg hw] at heq
        exact absurd (congrArg List.head? heq) h
    · by_cases hw : w = []
      · rw [if_neg hv, if_pos hw] at heq
        exact absurd (congrArg List.head? heq).symm h'
      · rw [if_neg hv, if_neg hw] at heq
        obtain ⟨-, hrest⟩ := List.cons.inj heq
        exact List.cons.inj hrest
  · rintro ⟨hvalue, hrest⟩
    rw [hvalue, hrest]

theorem authArgs_append_inj {noAuth noAuth' : Bool} (h : Ends "--no-auth".toList rest)
    (h' : Ends "--no-auth".toList rest') :
    authArgs noAuth ++ rest = authArgs noAuth' ++ rest' ↔ noAuth = noAuth' ∧ rest = rest' := by
  cases noAuth with
  | false =>
      cases noAuth' with
      | false => simp [authArgs]
      | true =>
          refine iff_of_false (fun heq => ?_) fun hboth => by cases hboth.1
          exact h (congrArg List.head? heq)
  | true =>
      cases noAuth' with
      | false =>
          refine iff_of_false (fun heq => ?_) fun hboth => by cases hboth.1
          exact h' (congrArg List.head? heq).symm
      | true => simp [authArgs]

theorem natToStr_inj {m n : Nat} : natToStr m = natToStr n ↔ m = n := by
  constructor
  · intro heq
    have hvalue := congrArg (Nat.ofDigitChars 10 · 0) heq
    simpa [natToStr] using hvalue
  · intro heq
    rw [heq]

theorem workerArgs_inj {m n : Nat} : workerArgs m = workerArgs n ↔ m = n := by
  constructor
  · intro heq
    unfold workerArgs at heq
    split at heq
    next hm =>
      split at heq
      next hn => exact natToStr_inj.mp (List.cons.inj (List.cons.inj heq).2).1
      next => cases heq
    next hm =>
      split at heq
      next => cases heq
      next hn => omega
  · intro heq
    rw [heq]

/-- The volumes that are given are the real ones. -/
theorem volumeArgs_eq (volumes : List Str) :
    volumeArgs volumes =
      (realVolumes volumes).flatMap fun volume => ["--volumes".toList, volume] := by
  induction volumes with
  | nil => rfl
  | cons volume volumes ih =>
      rw [volumeArgs, List.flatMap_cons, realVolumes, List.map_cons]
      by_cases hblank : trim volume = []
      · rw [List.filter_cons_of_neg (by simpa using hblank), optionArgs, if_pos hblank]
        exact ih
      · rw [List.filter_cons_of_pos (by simpa using hblank), optionArgs, if_neg hblank]
        exact congrArg ([_, _] ++ ·) ih

/-- The volumes are read back one after the other. -/
theorem volumes_append_inj {volumes volumes' : List Str} (h : Ends "--volumes".toList rest)
    (h' : Ends "--volumes".toList rest') :
    (volumes.flatMap fun volume => ["--volumes".toList, volume]) ++ rest =
        (volumes'.flatMap fun volume => ["--volumes".toList, volume]) ++ rest' ↔
      volumes = volumes' ∧ rest = rest' := by
  constructor
  · intro heq
    induction volumes generalizing volumes' with
    | nil =>
        cases volumes' with
        | nil => exact ⟨rfl, heq⟩
        | cons volume' volumes' => exact absurd (congrArg List.head? heq) h
    | cons volume volumes ih =>
        cases volumes' with
        | nil => exact absurd (congrArg List.head? heq).symm h'
        | cons volume' volumes' =>
            obtain ⟨-, hvolume⟩ := List.cons.inj heq
            obtain ⟨hsame, htail⟩ := List.cons.inj hvolume
            obtain ⟨hvolumes, hrest⟩ := ih htail
            exact ⟨by rw [hsame, hvolumes], hrest⟩
  · rintro ⟨hvolumes, hrest⟩
    rw [hvolumes, hrest]

end Args

/-! ## The settings and the command line -/

section Tails

variable {name : Str} (config config' : ServerConfig)

theorem ends_healTail (hheal : "--heal-interval".toList ≠ name)
    (hworkers : "--mrf-workers".toList ≠ name) : Ends name (healTail config) :=
  (Ends.workerArgs hworkers _).optionArgs hheal

theorem ends_scanTail (hscan : "--scan-interval".toList ≠ name)
    (hheal : "--heal-interval".toList ≠ name) (hworkers : "--mrf-workers".toList ≠ name) :
    Ends name (scanTail config) :=
  (ends_healTail config hheal hworkers).optionArgs hscan

theorem ends_authTail (hauth : "--no-auth".toList ≠ name) (hscan : "--scan-interval".toList ≠ name)
    (hheal : "--heal-interval".toList ≠ name) (hworkers : "--mrf-workers".toList ≠ name) :
    Ends name (authTail config) :=
  (ends_scanTail config hscan hheal hworkers).authArgs hauth _

theorem healTail_inj : healTail config = healTail config' ↔
    config.healInterval = config'.healInterval ∧ config.mrfWorkers = config'.mrfWorkers := by
  have hends : ∀ config : ServerConfig,
      Ends "--heal-interval".toList (workerArgs config.mrfWorkers) :=
    fun config => Ends.workerArgs (by decide) _
  unfold healTail
  rw [optionArgs_append_inj (hends config) (hends config'), workerArgs_inj]

theorem scanTail_inj : scanTail config = scanTail config' ↔
    config.scanInterval = config'.scanInterval ∧ healTail config = healTail config' := by
  have hends : ∀ config, Ends "--scan-interval".toList (healTail config) :=
    fun config => ends_healTail config (by decide) (by decide)
  exact optionArgs_append_inj (hends config) (hends config')

theorem authTail_inj : authTail config = authTail config' ↔
    config.noAuth = config'.noAuth ∧ scanTail config = scanTail config' := by
  have hends : ∀ config, Ends "--no-auth".toList (scanTail config) :=
    fun config => ends_scanTail config (by decide) (by decide) (by decide)
  exact authArgs_append_inj (hends config) (hends config')

theorem volumeTail_inj : volumeTail config = volumeTail config' ↔
    realVolumes config.volumes = realVolumes config'.volumes ∧
      authTail config = authTail config' := by
  have hends : ∀ config, Ends "--volumes".toList (authTail config) :=
    fun config => ends_authTail config (by decide) (by decide) (by decide) (by decide)
  unfold volumeTail
  rw [volumeArgs_eq, volumeArgs_eq]
  exact volumes_append_inj (hends config) (hends config')

/-- Two settings give one command line exactly if a server would be started with the same,
whatever their texts are. -/
theorem command_line_identifies :
    buildArgs config = buildArgs config' ↔ config.launchSettings = config'.launchSettings := by
  have hends : ∀ config, Ends "--listen".toList (volumeTail config) := by
    intro config
    have hauth : Ends "--listen".toList (authTail config) :=
      ends_authTail config (by decide) (by decide) (by decide) (by decide)
    exact hauth.volumeArgs (by decide) _
  unfold buildArgs
  rw [optionArgs_append_inj (hends config) (hends config'), volumeTail_inj, authTail_inj,
    scanTail_inj, healTail_inj]
  exact (LaunchSettings.mk.injEq ..).to_iff.symm

end Tails

/-- Volumes and intervals that read like options are told from options. -/
example :
    buildArgs { ServerConfig.default with
        volumes := [" --no-auth".toList, "  ".toList], scanInterval := [], mrfWorkers := 0 } =
      ["--listen".toList, ":10000".toList, "--volumes".toList, "--no-auth".toList,
        "--heal-interval".toList, "24h".toList] := by
  decide

/-! ## The page of the launcher -/

/-- The settings on the page, the rows of its volumes, and the positions that the open
folder dialogs were opened for. -/
structure ServerPage where
  binaryPath : Str
  volumes : Rows Str
  listen : Str
  noAuth : Bool
  scanInterval : Str
  healInterval : Str
  mrfWorkers : Nat
  autoConnect : Bool
  dialogs : List Nat

namespace ServerPage

def new (config : ServerConfig) : ServerPage where
  binaryPath := config.binaryPath
  volumes := .ofList config.volumes
  listen := config.listen
  noAuth := config.noAuth
  scanInterval := config.scanInterval
  healInterval := config.healInterval
  mrfWorkers := config.mrfWorkers
  autoConnect := config.autoConnect
  dialogs := []

/-- The settings that a start uses and a save writes. -/
def config (page : ServerPage) : ServerConfig where
  binaryPath := page.binaryPath
  volumes := page.volumes.values
  listen := page.listen
  noAuth := page.noAuth
  scanInterval := page.scanInterval
  healInterval := page.healInterval
  mrfWorkers := page.mrfWorkers
  autoConnect := page.autoConnect

/-! ## Handlers -/

variable (page : ServerPage)

def handleServerBinaryPathChanged (value : Str) : ServerPage := { page with binaryPath := value }

def handleServerListenChanged (value : Str) : ServerPage := { page with listen := value }

def handleServerNoAuthToggled (value : Bool) : ServerPage := { page with noAuth := value }

def handleServerScanIntervalChanged (value : Str) : ServerPage :=
  { page with scanInterval := value }

def handleServerHealIntervalChanged (value : Str) : ServerPage :=
  { page with healInterval := value }

/-- A text that is no number changes nothing. -/
def handleServerMrfWorkersChanged (value : Str) : ServerPage :=
  match parseUnsigned 64 value with
  | some n => { page with mrfWorkers := n }
  | none => page

def handleServerAutoConnectToggled (value : Bool) : ServerPage :=
  { page with autoConnect := value }

def handleServerAddVolume : ServerPage := { page with volumes := page.volumes.push [] }

def handleServerRemoveVolume (index : Nat) : ServerPage :=
  if index < page.volumes.values.length then
    { page with volumes := page.volumes.remove index }
  else page

def handleServerVolumeChanged (index : Nat) (value : Str) : ServerPage :=
  if index < page.volumes.values.length then
    { page with volumes := page.volumes.set index value }
  else page

def handleServerPickVolume (index : Nat) : ServerPage :=
  { page with dialogs := page.dialogs ++ [index] }

/-- The path is the text of the folder, if one was picked. -/
def handleServerVolumePathPicked (index : Nat) (path : Option Str) : ServerPage :=
  match path with
  | some path =>
      if index < page.volumes.values.length then
        { page with volumes := page.volumes.set index path }
      else page
  | none => page

end ServerPage

/-! ## Steps -/

/-- The user edits the page, and a dialog that is open is answered. -/
inductive ServerPageEvent
  | serverBinaryPathChanged (value : Str)
  | serverListenChanged (value : Str)
  | serverNoAuthToggled (value : Bool)
  | serverScanIntervalChanged (value : Str)
  | serverHealIntervalChanged (value : Str)
  | serverMrfWorkersChanged (value : Str)
  | serverAutoConnectToggled (value : Bool)
  | serverAddVolume
  | serverRemoveVolume (index : Nat)
  | serverVolumeChanged (index : Nat) (value : Str)
  | serverPickVolume (index : Nat)
  | serverVolumePathPicked (dialog : Nat) (path : Option Str)

namespace ServerPage

def step (page : ServerPage) : ServerPageEvent → ServerPage
  | .serverBinaryPathChanged value => page.handleServerBinaryPathChanged value
  | .serverListenChanged value => page.handleServerListenChanged value
  | .serverNoAuthToggled value => page.handleServerNoAuthToggled value
  | .serverScanIntervalChanged value => page.handleServerScanIntervalChanged value
  | .serverHealIntervalChanged value => page.handleServerHealIntervalChanged value
  | .serverMrfWorkersChanged value => page.handleServerMrfWorkersChanged value
  | .serverAutoConnectToggled value => page.handleServerAutoConnectToggled value
  | .serverAddVolume => page.handleServerAddVolume
  | .serverRemoveVolume index => page.handleServerRemoveVolume index
  | .serverVolumeChanged index value => page.handleServerVolumeChanged index value
  | .serverPickVolume index => page.handleServerPickVolume index
  | .serverVolumePathPicked dialog path =>
      match page.dialogs[dialog]? with
      | some index =>
          { page with dialogs := page.dialogs.eraseIdx dialog }.handleServerVolumePathPicked
            index path
      | none => page

/-- The event takes out no row at the position or before it. -/
def KeepsRow (index : Nat) (page : ServerPage) (event : ServerPageEvent) : Prop :=
  ∀ removed, event = .serverRemoveVolume removed → removed < page.volumes.values.length →
    index < removed

/-! ## Rows and dialogs -/

section Picked

variable {page : ServerPage} {index row : Nat}

/-- What an event does to the rows: nothing, or one edit that keeps the same rows. -/
inductive Edits (page : ServerPage) (event : ServerPageEvent) (after : Rows Str) : Prop
  | none (same : after = page.volumes) (keeps : ∀ index, page.KeepsRow index event)
  | one (edit : RowEdit Str) (edited : after = page.volumes.edit edit)
      (keeps_iff : ∀ index, Rows.Keeps index page.volumes edit ↔ page.KeepsRow index event)

/-- Only taking a row out keeps fewer than all rows. -/
theorem keepsRow_of_ne {event : ServerPageEvent}
    (h : ∀ removed, event ≠ .serverRemoveVolume removed) (index : Nat) :
    page.KeepsRow index event :=
  fun removed hremoved => absurd hremoved (h removed)

theorem edits_set {event : ServerPageEvent} (value : Str)
    (h : ∀ removed, event ≠ .serverRemoveVolume removed) :
    Edits page event (page.volumes.set index value) :=
  .one (.set index value) rfl fun _ =>
    iff_of_true (fun _ hremove => by cases hremove) (keepsRow_of_ne h _)

theorem step_edits (event : ServerPageEvent) : Edits page event (page.step event).volumes := by
  cases event with
  | serverMrfWorkersChanged value =>
      refine .none ?_ (keepsRow_of_ne fun _ => ServerPageEvent.noConfusion)
      simp only [step, handleServerMrfWorkersChanged]
      split
      next => rfl
      next => rfl
  | serverAddVolume =>
      refine .one (.push []) rfl fun _ => iff_of_true ?_ ?_
      · intro removed hremove
        cases hremove
      · exact keepsRow_of_ne (fun _ => ServerPageEvent.noConfusion) _
  | serverRemoveVolume removed =>
      simp only [step, handleServerRemoveVolume]
      split
      next =>
        refine .one (.remove removed) rfl fun index => ⟨?_, ?_⟩
        · intro hkeeps position hposition
          obtain rfl := ServerPageEvent.serverRemoveVolume.inj hposition
          exact hkeeps removed rfl
        · intro hkeeps position hposition
          obtain rfl := RowEdit.remove.inj hposition
          exact hkeeps removed rfl
      next hnone =>
        refine .none rfl fun index position hposition hlt => ?_
        obtain rfl := ServerPageEvent.serverRemoveVolume.inj hposition
        exact absurd hlt hnone
  | serverVolumeChanged position value =>
      simp only [step, handleServerVolumeChanged]
      split
      next => exact edits_set value fun _ => ServerPageEvent.noConfusion
      next => exact .none rfl (keepsRow_of_ne fun _ => ServerPageEvent.noConfusion)
  | serverVolumePathPicked dialog path =>
      have hkeeps := @keepsRow_of_ne page (.serverVolumePathPicked dialog path)
        fun _ => ServerPageEvent.noConfusion
      simp only [step, handleServerVolumePathPicked]
      split
      next =>
        split
        next =>
          split
          next => exact edits_set _ fun _ => ServerPageEvent.noConfusion
          next => exact .none rfl hkeeps
        next => exact .none rfl hkeeps
      next => exact .none rfl hkeeps
  | _ => exact .none rfl (keepsRow_of_ne fun _ => ServerPageEvent.noConfusion)

/-- The row that was at a position is still there exactly if no row at the position or
before it was taken out. -/
theorem rowAt_page_iff (h : page.volumes.rowAt index = some row) (events : List ServerPageEvent) :
    (run step page events).volumes.rowAt index = some row ↔
      Along step (KeepsRow index) page events := by
  refine run_iff_along_of_lost (fun page : ServerPage => page.volumes.rowAt index = some row)
    (fun page => page.volumes.Before row index) ?_ ?_ ?_ ?_ h events
  · intro page event hrow hkeeps
    show (page.step event).volumes.rowAt index = some row
    cases page.step_edits event with
    | none same keeps => rw [same, hrow]
    | one edit edited keeps_iff =>
        rw [edited]
        exact Rows.rowAt_edit hrow ((keeps_iff index).mpr hkeeps)
  · intro page event hrow hnot
    cases page.step_edits event with
    | none same keeps => exact absurd (keeps index) hnot
    | one edit edited keeps_iff =>
        rw [edited]
        exact Rows.before_of_not_keeps hrow fun hkeeps => hnot ((keeps_iff index).mp hkeeps)
  · intro page event hbefore
    cases page.step_edits event with
    | none same keeps =>
        rw [same]
        exact hbefore
    | one edit edited keeps_iff =>
        rw [edited]
        exact hbefore.edit edit
  · intro page hbefore hrow
    exact Nat.lt_irrefl _ (hbefore.lt index hrow)

/-- A folder that is picked is set at the position that the dialog noted down. -/
theorem picked_volumes {dialog : Nat} (h : page.dialogs[dialog]? = some index) (path : Str) :
    (page.step (.serverVolumePathPicked dialog (some path))).volumes =
      page.volumes.set index path := by
  simp only [step, h, handleServerVolumePathPicked]
  split
  next => rfl
  next hout => exact (Rows.set_of_length_le (Nat.le_of_not_lt hout) path).symm

end Picked

/-- A folder picked for a row of the volumes becomes the path of that row and of no other,
whatever is done while the dialog is open, exactly if no row up to it is taken out. -/
theorem picked_folder_exact (page : ServerPage) {index row : Nat}
    (hrow : page.volumes.rowAt index = some row) (events : List ServerPageEvent) {dialog : Nat}
    (hdialog : (run step page events).dialogs[dialog]? = some index) :
    (∀ path other,
      ((run step page events).step
          (.serverVolumePathPicked dialog (some path))).volumes.valueOf other =
        if other = row then some path else (run step page events).volumes.valueOf other) ↔
      Along step (KeepsRow index) page events := by
  rw [← rowAt_page_iff hrow events,
    ← Rows.forall_valueOf_set_iff (show ([] : Str) ≠ ['a'] by decide)]
  simp only [picked_volumes hdialog]

/-- A page with two volumes whose first row has its dialog open. -/
def picking : ServerPage :=
  (new { ServerConfig.default with volumes := ["/a".toList, "/b".toList] }).step
    (.serverPickVolume 0)

/-- While the dialog is open the second row is taken out and another one is added; the
folder is that of the first row. -/
theorem picked_folder_exact_edited :
    ((run step picking [.serverRemoveVolume 1, .serverAddVolume]).step
      (.serverVolumePathPicked 0 (some "/c".toList))).volumes.valueOf 0 = some "/c".toList := by
  have hkept : Along step (KeepsRow 0) picking [.serverRemoveVolume 1, .serverAddVolume] := by
    refine ⟨?_, ?_, trivial⟩
    · intro removed hremoved _
      obtain rfl := ServerPageEvent.serverRemoveVolume.inj hremoved
      decide
    · exact keepsRow_of_ne (fun _ => ServerPageEvent.noConfusion) 0
  have hrow : picking.volumes.rowAt 0 = some 0 := by decide
  exact (picked_folder_exact picking hrow _ rfl).mpr hkept "/c".toList 0

/-- The first row is taken out, and the folder replaces the path of the second. -/
example :
    (run step picking [.serverRemoveVolume 0,
      .serverVolumePathPicked 0 (some "/c".toList)]).config.volumes = ["/c".toList] := by
  decide

end ServerPage

end AbixioUi.Config
