import AbixioUi.App.SavedConnections
import AbixioUi.App.World

/-! # What the next start shows

Settings are changed in memory first, then written to the settings file, and the next start
reads that file. A change whose write fails is shown all the same.
-/

namespace AbixioUi.Config

open Foundation

/-! ## The machine -/

/-- A start goes on with empty settings where the file cannot be read. -/
def restarted (serde : Serde) (settingsFile : Option (List UInt8)) : Settings :=
  match load serde settingsFile with
  | .ok settings => settings
  | .error _ => .default

/-- The connections that the screen lists, and the stores behind them. -/
structure SavedWorld where
  shown : List Connection
  stores : Stores

inductive SavedEvent
  | addConnection (replies : EditReplies) (connection : Connection) (accessKey secretKey : Str)
  | removeConnection (replies : EditReplies) (name : Str)
  /-- The server has been started with this configuration, or the user saves it. -/
  | saveServer (replies : FileReplies) (server : ServerConfig)

section

variable (surroundings : Surroundings) (serde : Serde)

def SavedWorld.start (keychain : Keychain) (files : Files) : SavedWorld :=
  let settings := restarted serde files.settingsFile
  ⟨settings.connections, ⟨settings, keychain, files⟩⟩

/-- The screen is told how the stores have answered. -/
def SavedWorld.step (world : SavedWorld) : SavedEvent → SavedWorld
  | .addConnection replies connection accessKey secretKey =>
      let stored := storeKeys replies.keychain world.stores.keychain connection.name accessKey
        secretKey
      let saved := save serde replies.files world.stores.files
        (world.stores.settings.put connection)
      let told := { surroundings with storeKeys := stored.1, saveSettings := saved.1 }
      { shown := (AbixioUi.addConnection told world.shown connection accessKey secretKey).1
        stores := (addConnection serde replies world.stores connection accessKey secretKey).2 }
  | .removeConnection replies name =>
      let saved := save serde replies.files world.stores.files
        (world.stores.settings.retain name)
      let told := { surroundings with saveSettings := saved.1 }
      { shown := (AbixioUi.removeConnection told world.shown name).1
        stores := (removeConnection serde replies world.stores name).2 }
  | .saveServer replies server =>
      let settings := { world.stores.settings with server := server }
      let saved := save serde replies world.stores.files settings
      { world with stores := { world.stores with settings := settings, files := saved.2 } }

end

/-! ## Restarts -/

/-- The next start shows the same connections and has the same server configuration. -/
def SavedWorld.Restarts (serde : Serde) (world : SavedWorld) : Prop :=
  restarted serde world.stores.files.settingsFile =
    { world.stores.settings with connections := world.shown }

/-- The settings are written, or the write is cut off and they are the ones that a start
without a readable file has, or the file stays and they are the ones it holds. -/
def FileReplies.Lands (serde : Serde) (replies : FileReplies) (files : Files)
    (settings : Settings) : Prop :=
  replies.Saves serde files settings ∨
    match replies.data serde files settings, replies.write with
    | .ok _, .cut _ _ => settings = .default
    | _, _ => settings = restarted serde files.settingsFile

/-- The keys of an addition are refused, so nothing else is changed. -/
def EditReplies.RefusesKeys (replies : EditReplies) (name accessKey secretKey : Str) : Prop :=
  (accessKey ≠ [] ∧ secretKey ≠ []) ∧
    ¬ (replies.keychain.Sets (accessKeyLabel name) ∧ replies.keychain.Sets (secretKeyLabel name))

/-- The change is not made in memory, or gets into the file. -/
def SavedWorld.Lands (serde : Serde) (world : SavedWorld) : SavedEvent → Prop
  | .addConnection replies connection accessKey secretKey =>
      replies.RefusesKeys connection.name accessKey secretKey ∨
        replies.files.Lands serde world.stores.files (world.stores.settings.put connection)
  | .removeConnection replies name =>
      replies.files.Lands serde world.stores.files (world.stores.settings.retain name)
  | .saveServer replies server =>
      replies.Lands serde world.stores.files { world.stores.settings with server := server }

/-- What the documentation of the serialisation says: its texts are read back, and no part
of one is a text. -/
structure Serde.Documented (serde : Serde) : Prop where
  fromStr_toStringPretty : ∀ settings data, serde.toStringPretty settings = .ok data →
    serde.fromStr data = .ok settings
  fromStr_take : ∀ settings data length, serde.toStringPretty settings = .ok data →
    ∃ e, serde.fromStr (data.dropLast.take length) = .error e

section

variable {serde : Serde}

/-- The next start has the settings of a save exactly if the save lands. -/
theorem restarted_save_iff (hserde : serde.Documented) (replies : FileReplies) (files : Files)
    (settings : Settings) :
    restarted serde (save serde replies files settings).2.settingsFile = settings ↔
      replies.Lands serde files settings := by
  by_cases hsaves : replies.Saves serde files settings
  · refine iff_of_true ?_ (.inl hsaves)
    have hok : (save serde replies files settings).1 = .ok () := by
      cases hresult : (save serde replies files settings).1 with
      | error e => exact absurd hsaves ((save_fails_iff _ _ _ _).mp ⟨e, hresult⟩)
      | ok _ => rfl
    obtain ⟨data, htext, hfile⟩ := save_ok _ _ _ _ hok
    rw [hfile]
    simp only [restarted, load, hserde.fromStr_toStringPretty settings data htext]
  · rw [save_file_of_fails _ _ _ _ hsaves, FileReplies.Lands, or_iff_right hsaves]
    unfold FileReplies.left
    cases hdata : replies.data serde files settings with
    | error e => exact eq_comm
    | ok data =>
        cases hwrite : replies.write with
        | written => exact absurd ⟨⟨data, hdata⟩, hwrite⟩ hsaves
        | refused error => exact eq_comm
        | cut length error =>
            have htext := toStringPretty_of_data _ _ _ _ hdata
            obtain ⟨e, htorn⟩ := hserde.fromStr_take settings data length htext
            simp only [restarted, load, htorn]
            exact eq_comm

/-- Storing a pair of keys is refused exactly if the keychain refuses one of them. -/
theorem storeKeys_fails_iff (replies : KeychainReplies) (keychain : Keychain)
    (name accessKey secretKey : Str) :
    (∃ e, (storeKeys replies keychain name accessKey secretKey).1 = .error e) ↔
      ¬ (replies.Sets (accessKeyLabel name) ∧ replies.Sets (secretKeyLabel name)) := by
  have hstores := storeKeys_spec replies keychain name accessKey secretKey
  generalize storeKeys replies keychain name accessKey secretKey = outcome at hstores
  cases hstores with
  | @refused e haccess => exact iff_of_true ⟨e, rfl⟩ fun hsets => haccess hsets.1
  | @half e haccess hsecret => exact iff_of_true ⟨e, rfl⟩ fun hsets => hsecret hsets.2
  | whole haccess hsecret =>
      refine iff_of_false ?_ fun hnot => hnot ⟨haccess, hsecret⟩
      rintro ⟨e, he⟩
      cases he

variable {surroundings : Surroundings} {world : SavedWorld}

/-- The screen lists the connections in memory. -/
theorem SavedWorld.step_shown (h : world.shown = world.stores.settings.connections)
    (event : SavedEvent) :
    (world.step surroundings serde event).shown =
      (world.step surroundings serde event).stores.settings.connections := by
  cases event with
  | addConnection replies connection accessKey secretKey =>
      simp only [SavedWorld.step, h]
      rw [addConnection_refines rfl rfl]
  | removeConnection replies name =>
      simp only [SavedWorld.step, h]
      rw [removeConnection_refines rfl]
  | saveServer replies server => exact h

theorem SavedWorld.restarts_iff (h : world.shown = world.stores.settings.connections) :
    world.Restarts serde ↔
      restarted serde world.stores.files.settingsFile = world.stores.settings := by
  rw [SavedWorld.Restarts, h]

theorem SavedWorld.step_restarts (hserde : serde.Documented)
    (h : world.shown = world.stores.settings.connections) (hrestarts : world.Restarts serde)
    (event : SavedEvent) :
    (world.step surroundings serde event).Restarts serde ↔ world.Lands serde event := by
  rw [SavedWorld.restarts_iff (SavedWorld.step_shown h event)]
  cases event with
  | addConnection replies connection accessKey secretKey =>
      have hsaved := restarted_save_iff hserde replies.files world.stores.files
        (world.stores.settings.put connection)
      simp only [SavedWorld.step, SavedWorld.Lands, addConnection, EditReplies.RefusesKeys]
      by_cases hgiven : accessKey ≠ [] ∧ secretKey ≠ []
      · have hfails := storeKeys_fails_iff replies.keychain world.stores.keychain connection.name
          accessKey secretKey
        rw [if_pos hgiven, and_iff_right hgiven]
        generalize storeKeys replies.keychain world.stores.keychain connection.name accessKey
          secretKey = outcome at hfails
        obtain ⟨result, keychain⟩ := outcome
        cases result with
        | error e =>
            refine iff_of_true ?_ (.inl (hfails.mp ⟨e, rfl⟩))
            exact (SavedWorld.restarts_iff h).mp hrestarts
        | ok _ =>
            rw [or_iff_right fun hrefused => ?_]
            · exact hsaved
            · obtain ⟨e, he⟩ := hfails.mpr hrefused
              cases he
      · rw [if_neg hgiven, or_iff_right fun hrefused => hgiven hrefused.1]
        exact hsaved
  | removeConnection replies name => exact restarted_save_iff hserde _ _ _
  | saveServer replies server => exact restarted_save_iff hserde _ _ _

/-- In every state of a run the next start shows what the screen shows, exactly if every
change along the run is refused as a whole or gets into the file. -/
theorem next_start_shows_iff (hserde : serde.Documented) (surroundings : Surroundings)
    (keychain : Keychain) (files : Files) (events : List SavedEvent) :
    (∀ earlier, earlier <+: events → (run (SavedWorld.step surroundings serde)
      (SavedWorld.start serde keychain files) earlier).Restarts serde) ↔
      Along (SavedWorld.step surroundings serde) (SavedWorld.Lands serde)
        (SavedWorld.start serde keychain files) events := by
  have hstart : (SavedWorld.start serde keychain files).Restarts serde := rfl
  exact forall_prefix_iff_along (fun world => world.shown = world.stores.settings.connections)
    (SavedWorld.Restarts serde) (fun _ event h _ => SavedWorld.step_shown h event)
    (fun _ event h _ hrestarts => SavedWorld.step_restarts hserde h hrestarts event) rfl hstart
    (along_true _ events)

end

/-! ## A full disk -/

/-- Settings with one connection at most can be written. -/
def prodSerde : Serde where
  toStringPretty settings :=
    if settings = .default then .ok [0, 0]
    else if settings = ⟨[prod], .default⟩ then .ok [1, 0] else .error "unsupported"
  fromStr data :=
    if data = [0, 0] then .ok .default
    else if data = [1, 0] then .ok ⟨[prod], .default⟩ else .error "expected value"

theorem prodSerde_documented : prodSerde.Documented where
  fromStr_toStringPretty settings data h := by
    simp only [prodSerde] at h
    split at h
    next hdefault => cases h; rw [hdefault]; rfl
    next =>
      split at h
      next hprod => cases h; rw [hprod]; rfl
      next => cases h
  fromStr_take settings data length h := by
    have hlength : data.length = 2 := by
      simp only [prodSerde] at h
      split at h
      next => cases h; rfl
      next =>
        split at h
        next => cases h; rfl
        next => cases h
    have hne : ∀ b : UInt8, data.dropLast.take length ≠ [b, 0] := by
      intro b heq
      have hshort := congrArg List.length heq
      simp only [List.length_take, List.length_dropLast, hlength, List.length_cons,
        List.length_nil] at hshort
      omega
    refine ⟨"expected value", ?_⟩
    simp only [prodSerde, if_neg (hne 0), if_neg (hne 1)]

/-- A connection without keys is added, and the disk is full. -/
def fullDisk : SavedEvent :=
  .addConnection ⟨locksHalfway, ⟨.ok (), .ok (), .ok (), .refused "disk full"⟩⟩ prod [] []

/-- It is listed, and gone at the next start. -/
theorem next_start_shows_iff_fullDisk :
    ¬ ∀ earlier, earlier <+: [fullDisk] → (run (SavedWorld.step calm prodSerde)
      (SavedWorld.start prodSerde prodKeychain ⟨false, none⟩) earlier).Restarts prodSerde := by
  rw [next_start_shows_iff prodSerde_documented]
  rintro ⟨⟨hgiven, -⟩ | ⟨-, hwritten⟩ | hsame, -⟩
  · exact hgiven.1 rfl
  · cases hwritten
  · cases hsame

end AbixioUi.Config
