import AbixioUi.App.Connections
import Mathlib.Logic.Function.Basic

/-! # Where a connection is saved

A connection is in the settings in memory, in the settings file, and its two keys are in
the keychain. An edit goes through these stores one after another, and every operation on
the keychain and on the file can fail.
-/

namespace AbixioUi.Config

open Foundation

/-! ## Keychain -/

/-- The passwords of the service, by label. -/
abbrev Keychain := Str → Option Str

def accessKeyLabel (credName : Str) : Str := credName ++ ".access-key".toList

def secretKeyLabel (credName : Str) : Str := credName ++ ".secret-key".toList

/-- What the keychain answers. That an entry is missing is no answer of its own: the
keychain itself says whether it is. -/
structure KeychainReplies where
  newEntry : Str → Except String Unit
  setPassword : Str → Except String Unit
  getPassword : Str → Except String Unit
  deleteCredential : Str → Except String Unit

section

variable (replies : KeychainReplies) (keychain : Keychain)

def setEntry (label password : Str) : Except String Unit × Keychain :=
  match (replies.newEntry label).bind fun _ => replies.setPassword label with
  | .error e => (.error e, keychain)
  | .ok () => (.ok (), Function.update keychain label (some password))

def storeKeys (credName accessKey secretKey : Str) : Except String Unit × Keychain :=
  match setEntry replies keychain (accessKeyLabel credName) accessKey with
  | (.error e, keychain) => (.error e, keychain)
  | (.ok (), keychain) => setEntry replies keychain (secretKeyLabel credName) secretKey

def getEntry (label : Str) : Except String (Option Str) :=
  (replies.newEntry label).bind fun _ => (replies.getPassword label).map fun _ => keychain label

def getKeys (credName : Str) : Except String (Option (Str × Str)) :=
  match getEntry replies keychain (accessKeyLabel credName) with
  | .error e => .error e
  | .ok none => .ok none
  | .ok (some accessKey) =>
      match getEntry replies keychain (secretKeyLabel credName) with
      | .error e => .error e
      | .ok none => .ok none
      | .ok (some secretKey) => .ok (some (accessKey, secretKey))

/-- An entry that is not there counts as deleted. -/
def deleteEntry (label : Str) : Except String Unit × Keychain :=
  match (replies.newEntry label).bind fun _ => replies.deleteCredential label with
  | .error e => (.error e, keychain)
  | .ok () => (.ok (), Function.update keychain label none)

def deleteEntries (keychain : Keychain) : List Str → Except String Unit × Keychain
  | [] => (.ok (), keychain)
  | label :: labels =>
      match deleteEntry replies keychain label with
      | (.error e, keychain) => (.error e, keychain)
      | (.ok (), keychain) => deleteEntries keychain labels

def deleteKeys (credName : Str) : Except String Unit × Keychain :=
  deleteEntries replies keychain [accessKeyLabel credName, secretKeyLabel credName]

end

/-! ## Settings -/

structure ServerConfig extends AbixioUi.ServerConfig where
  binaryPath : Str
  scanInterval : Str
  healInterval : Str
  mrfWorkers : Nat
deriving DecidableEq, Repr

def ServerConfig.default : ServerConfig where
  binaryPath := []
  volumes := []
  listen := ":10000".toList
  noAuth := false
  scanInterval := "10m".toList
  healInterval := "24h".toList
  mrfWorkers := 2
  autoConnect := true

structure Settings where
  connections : List Connection
  server : ServerConfig
deriving DecidableEq, Repr

def Settings.default : Settings := ⟨[], .default⟩

def Settings.retain (settings : Settings) (name : Str) : Settings :=
  { settings with connections := settings.connections.filter (·.name ≠ name) }

/-- The list keeps one connection for a name, the last one put. -/
def Settings.put (settings : Settings) (connection : Connection) : Settings :=
  { settings.retain connection.name with
    connections := (settings.retain connection.name).connections ++ [connection] }

/-! ## The settings file -/

/-- The serialisation of settings, as the bytes of a file. -/
structure Serde where
  toStringPretty : Settings → Except String (List UInt8)
  fromStr : List UInt8 → Except String Settings

structure Files where
  configDir : Bool
  settingsFile : Option (List UInt8)
deriving DecidableEq, Repr

/-- A write empties the file when it opens it; one that fails later leaves the bytes it
had got to, and has got to all but the last at most. -/
inductive WriteReply
  | written
  | refused (error : String)
  | cut (length : Nat) (error : String)
deriving DecidableEq, Repr

/-- The home directory is asked for twice. -/
structure FileReplies where
  configDir : Except String Unit
  createDirAll : Except String Unit
  settingsPath : Except String Unit
  write : WriteReply

def Files.write (files : Files) (data : List UInt8) : WriteReply → Except String Unit × Files
  | .written => (.ok (), { files with settingsFile := some data })
  | .refused error => (.error error, files)
  | .cut length error =>
      (.error error, { files with settingsFile := some (data.dropLast.take length) })

section

variable (serde : Serde)

/-- What a start with this file reads. -/
def load (settingsFile : Option (List UInt8)) : Except String Settings :=
  match settingsFile with
  | none => .ok .default
  | some data => serde.fromStr data

def save (replies : FileReplies) (files : Files) (settings : Settings) :
    Except String Unit × Files :=
  match replies.configDir with
  | .error e => (.error e, files)
  | .ok () =>
      match if files.configDir then .ok () else replies.createDirAll with
      | .error e => (.error e, files)
      | .ok () =>
          let files := { files with configDir := true }
          match serde.toStringPretty settings with
          | .error e => (.error e, files)
          | .ok data =>
              match replies.settingsPath with
              | .error e => (.error e, files)
              | .ok () => files.write data replies.write

/-! ## Edits -/

structure Stores where
  settings : Settings
  keychain : Keychain
  files : Files

structure EditReplies where
  keychain : KeychainReplies
  files : FileReplies

variable (replies : EditReplies) (stores : Stores)

def addConnection (connection : Connection) (accessKey secretKey : Str) :
    Except String Unit × Stores :=
  match if accessKey ≠ [] ∧ secretKey ≠ [] then
      storeKeys replies.keychain stores.keychain connection.name accessKey secretKey
    else (.ok (), stores.keychain) with
  | (.error e, keychain) => (.error e, { stores with keychain := keychain })
  | (.ok (), keychain) =>
      let settings := stores.settings.put connection
      let saved := save serde replies.files stores.files settings
      (saved.1, ⟨settings, keychain, saved.2⟩)

/-- Whether the keys could be deleted is not looked at. -/
def removeConnection (name : Str) : Except String Unit × Stores :=
  let keychain := (deleteKeys replies.keychain stores.keychain name).2
  let settings := stores.settings.retain name
  let saved := save serde replies.files stores.files settings
  (saved.1, ⟨settings, keychain, saved.2⟩)

end

/-! ## Keys of a connection -/

/-- The two entries of a name. -/
def Keychain.keysOf (keychain : Keychain) (credName : Str) : Option Str × Option Str :=
  (keychain (accessKeyLabel credName), keychain (secretKeyLabel credName))

theorem accessKeyLabel_inj {name other : Str} :
    accessKeyLabel name = accessKeyLabel other ↔ name = other :=
  List.append_left_inj _

theorem secretKeyLabel_inj {name other : Str} :
    secretKeyLabel name = secretKeyLabel other ↔ name = other :=
  List.append_left_inj _

theorem accessKeyLabel_ne_secretKeyLabel (name other : Str) :
    accessKeyLabel name ≠ secretKeyLabel other := by
  intro hsame
  have hsuffixes : ".access-key".toList = ".secret-key".toList :=
    (List.append_inj' hsame (by decide)).2
  exact absurd hsuffixes (by decide)

section

variable {keychain : Keychain} {name other : Str} {accessKey secretKey : Option Str}

theorem keysOf_update_accessKey :
    Keychain.keysOf (Function.update keychain (accessKeyLabel name) accessKey) name =
      (accessKey, keychain (secretKeyLabel name)) := by
  have hdistinct := (accessKeyLabel_ne_secretKeyLabel name name).symm
  simp [Keychain.keysOf, Function.update_of_ne hdistinct]

theorem keysOf_update_secretKey :
    Keychain.keysOf (Function.update keychain (secretKeyLabel name) secretKey) name =
      (keychain (accessKeyLabel name), secretKey) := by
  have hdistinct := accessKeyLabel_ne_secretKeyLabel name name
  simp [Keychain.keysOf, Function.update_of_ne hdistinct]

theorem keysOf_update_of_ne (hdifferent : other ≠ name) {label : Str}
    (hown : label = accessKeyLabel name ∨ label = secretKeyLabel name) {password : Option Str} :
    Keychain.keysOf (Function.update keychain label password) other = keychain.keysOf other := by
  have haccess : accessKeyLabel other ≠ label := by
    cases hown with
    | inl hown => rw [hown]; exact fun hsame => hdifferent (accessKeyLabel_inj.mp hsame)
    | inr hown => rw [hown]; exact accessKeyLabel_ne_secretKeyLabel other name
  have hsecret : secretKeyLabel other ≠ label := by
    cases hown with
    | inl hown => rw [hown]; exact (accessKeyLabel_ne_secretKeyLabel name other).symm
    | inr hown => rw [hown]; exact fun hsame => hdifferent (secretKeyLabel_inj.mp hsame)
  simp only [Keychain.keysOf, Function.update_of_ne haccess, Function.update_of_ne hsecret]

end

/-! ## Which entries an edit changes -/

section

variable {replies : KeychainReplies} {keychain : Keychain} {name other : Str}
  {accessKey secretKey : Str}

def KeychainReplies.Sets (replies : KeychainReplies) (label : Str) : Prop :=
  replies.newEntry label = .ok () ∧ replies.setPassword label = .ok ()

def KeychainReplies.Deletes (replies : KeychainReplies) (label : Str) : Prop :=
  replies.newEntry label = .ok () ∧ replies.deleteCredential label = .ok ()

theorem setEntry_of_sets {label password : Str} (hsets : replies.Sets label) :
    setEntry replies keychain label password =
      (.ok (), Function.update keychain label (some password)) := by
  simp only [setEntry, hsets.1, hsets.2, Except.bind]

theorem setEntry_of_not_sets {label password : Str} (hrefused : ¬ replies.Sets label) :
    ∃ error, setEntry replies keychain label password = (.error error, keychain) := by
  unfold setEntry
  cases hentry : replies.newEntry label with
  | error e => exact ⟨e, rfl⟩
  | ok _ =>
      cases hset : replies.setPassword label with
      | error e => exact ⟨e, rfl⟩
      | ok _ => exact absurd ⟨hentry, hset⟩ hrefused

theorem deleteEntry_of_deletes {label : Str} (hdeletes : replies.Deletes label) :
    deleteEntry replies keychain label = (.ok (), Function.update keychain label none) := by
  simp only [deleteEntry, hdeletes.1, hdeletes.2, Except.bind]

theorem deleteEntry_of_not_deletes {label : Str} (hrefused : ¬ replies.Deletes label) :
    ∃ error, deleteEntry replies keychain label = (.error error, keychain) := by
  unfold deleteEntry
  cases hentry : replies.newEntry label with
  | error e => exact ⟨e, rfl⟩
  | ok _ =>
      cases hdeletion : replies.deleteCredential label with
      | error e => exact ⟨e, rfl⟩
      | ok _ => exact absurd ⟨hentry, hdeletion⟩ hrefused

/-- How storing a pair ends, with the keychain it leaves. -/
inductive StoresKeys (replies : KeychainReplies) (keychain : Keychain)
    (name accessKey secretKey : Str) : Except String Unit × Keychain → Prop
  | refused {e : String} (access : ¬ replies.Sets (accessKeyLabel name)) :
      StoresKeys replies keychain name accessKey secretKey (.error e, keychain)
  | half {e : String} (access : replies.Sets (accessKeyLabel name))
      (secret : ¬ replies.Sets (secretKeyLabel name)) :
      StoresKeys replies keychain name accessKey secretKey
        (.error e, Function.update keychain (accessKeyLabel name) (some accessKey))
  | whole (access : replies.Sets (accessKeyLabel name))
      (secret : replies.Sets (secretKeyLabel name)) :
      StoresKeys replies keychain name accessKey secretKey
        (.ok (), Function.update
          (Function.update keychain (accessKeyLabel name) (some accessKey))
          (secretKeyLabel name) (some secretKey))

theorem storeKeys_spec (replies : KeychainReplies) (keychain : Keychain)
    (name accessKey secretKey : Str) :
    StoresKeys replies keychain name accessKey secretKey
      (storeKeys replies keychain name accessKey secretKey) := by
  unfold storeKeys
  by_cases haccess : replies.Sets (accessKeyLabel name)
  · rw [setEntry_of_sets haccess]
    by_cases hsecret : replies.Sets (secretKeyLabel name)
    · have hstored := @setEntry_of_sets replies
        (Function.update keychain (accessKeyLabel name) (some accessKey)) _ secretKey hsecret
      show StoresKeys _ _ _ _ _ (setEntry _ _ _ _)
      rw [hstored]
      exact .whole haccess hsecret
    · obtain ⟨e, hrefused⟩ := @setEntry_of_not_sets replies
        (Function.update keychain (accessKeyLabel name) (some accessKey)) _ secretKey hsecret
      show StoresKeys _ _ _ _ _ (setEntry _ _ _ _)
      rw [hrefused]
      exact .half haccess hsecret
  · obtain ⟨e, hrefused⟩ := @setEntry_of_not_sets _ keychain _ accessKey haccess
    rw [hrefused]
    exact .refused haccess

/-- The entries that a deletion gets to are missing already. -/
def KeychainReplies.DeletesNothing (replies : KeychainReplies) (keychain : Keychain)
    (name : Str) : Prop :=
  replies.Deletes (accessKeyLabel name) →
    keychain (accessKeyLabel name) = none ∧
      (replies.Deletes (secretKeyLabel name) → keychain (secretKeyLabel name) = none)

theorem keysOf_update_accessKey_eq_iff {password : Option Str} :
    (∀ other, Keychain.keysOf (Function.update keychain (accessKeyLabel name) password) other =
      keychain.keysOf other) ↔ keychain (accessKeyLabel name) = password := by
  constructor
  · intro hsame
    have hown := hsame name
    rw [keysOf_update_accessKey] at hown
    exact (Prod.ext_iff.mp hown).1.symm
  · intro hheld other
    rw [← hheld, Function.update_eq_self]

theorem keysOf_update_both {access secret : Option Str} :
    Keychain.keysOf (Function.update
      (Function.update keychain (accessKeyLabel name) access) (secretKeyLabel name) secret) name =
      (access, secret) := by
  rw [keysOf_update_secretKey, Function.update_self]

theorem keysOf_update_both_eq_iff {access secret : Option Str} :
    (∀ other, Keychain.keysOf (Function.update
      (Function.update keychain (accessKeyLabel name) access) (secretKeyLabel name) secret) other =
      keychain.keysOf other) ↔ keychain.keysOf name = (access, secret) := by
  constructor
  · intro hsame
    rw [← hsame name, keysOf_update_both]
  · intro hheld other
    by_cases hown : other = name
    · rw [hown, keysOf_update_both, hheld]
    · rw [keysOf_update_of_ne hown (.inr rfl), keysOf_update_of_ne hown (.inl rfl)]

/-- What a deletion leaves: it stops at the first entry that is refused. -/
inductive DeletesKeys (replies : KeychainReplies) (keychain : Keychain) (name : Str) :
    Keychain → Prop
  | refused (access : ¬ replies.Deletes (accessKeyLabel name)) :
      DeletesKeys replies keychain name keychain
  | half (access : replies.Deletes (accessKeyLabel name))
      (secret : ¬ replies.Deletes (secretKeyLabel name)) :
      DeletesKeys replies keychain name
        (Function.update keychain (accessKeyLabel name) none)
  | whole (access : replies.Deletes (accessKeyLabel name))
      (secret : replies.Deletes (secretKeyLabel name)) :
      DeletesKeys replies keychain name (Function.update
        (Function.update keychain (accessKeyLabel name) none) (secretKeyLabel name) none)

theorem deleteKeys_spec (replies : KeychainReplies) (keychain : Keychain) (name : Str) :
    DeletesKeys replies keychain name (deleteKeys replies keychain name).2 := by
  unfold deleteKeys deleteEntries
  by_cases haccess : replies.Deletes (accessKeyLabel name)
  · rw [deleteEntry_of_deletes haccess]
    by_cases hsecret : replies.Deletes (secretKeyLabel name)
    · have hdeleted := @deleteEntry_of_deletes replies
        (Function.update keychain (accessKeyLabel name) none) _ hsecret
      simp only [deleteEntries, hdeleted]
      exact .whole haccess hsecret
    · obtain ⟨e, hrefused⟩ := @deleteEntry_of_not_deletes replies
        (Function.update keychain (accessKeyLabel name) none) _ hsecret
      simp only [deleteEntries, hrefused]
      exact .half haccess hsecret
  · obtain ⟨e, hrefused⟩ := @deleteEntry_of_not_deletes replies keychain _ haccess
    rw [hrefused]
    exact .refused haccess

theorem keysOf_deleteKeys_of_ne (hdifferent : other ≠ name) :
    (deleteKeys replies keychain name).2.keysOf other = keychain.keysOf other := by
  have hdeletes := deleteKeys_spec replies keychain name
  generalize (deleteKeys replies keychain name).2 = left at hdeletes
  cases hdeletes with
  | refused haccess => rfl
  | half haccess hsecret => exact keysOf_update_of_ne hdifferent (.inl rfl)
  | whole haccess hsecret =>
      rw [keysOf_update_of_ne hdifferent (.inr rfl), keysOf_update_of_ne hdifferent (.inl rfl)]

theorem keysOf_deleteKeys_iff :
    (deleteKeys replies keychain name).2.keysOf name = keychain.keysOf name ↔
      replies.DeletesNothing keychain name := by
  have hdeletes := deleteKeys_spec replies keychain name
  generalize (deleteKeys replies keychain name).2 = left at hdeletes
  unfold KeychainReplies.DeletesNothing
  cases hdeletes with
  | refused haccess => exact iff_of_true rfl fun hdeletes => absurd hdeletes haccess
  | half haccess hsecret =>
      rw [keysOf_update_accessKey]
      simp [Keychain.keysOf, haccess, hsecret, eq_comm]
  | whole haccess hsecret =>
      rw [keysOf_update_both]
      simp [Keychain.keysOf, haccess, hsecret, eq_comm]

end

/-! ## What a save that fails leaves -/

section

variable (serde : Serde) (replies : FileReplies) (files : Files) (settings : Settings)

/-- The bytes that are to be written, when a save gets that far. -/
def FileReplies.data (serde : Serde) (replies : FileReplies) (files : Files)
    (settings : Settings) : Except String (List UInt8) :=
  replies.configDir.bind fun _ =>
    (if files.configDir then .ok () else replies.createDirAll).bind fun _ =>
      (serde.toStringPretty settings).bind fun data => replies.settingsPath.map fun _ => data

def FileReplies.Saves (serde : Serde) (replies : FileReplies) (files : Files)
    (settings : Settings) : Prop :=
  (∃ data, replies.data serde files settings = .ok data) ∧ replies.write = .written

/-- The settings file after a save that fails. -/
def FileReplies.left (serde : Serde) (replies : FileReplies) (files : Files)
    (settings : Settings) : Option (List UInt8) :=
  match replies.data serde files settings, replies.write with
  | .ok data, .cut length _ => some (data.dropLast.take length)
  | _, _ => files.settingsFile

theorem save_eq :
    (∃ e, replies.data serde files settings = .error e ∧
      (save serde replies files settings).1 = .error e ∧
      (save serde replies files settings).2.settingsFile = files.settingsFile) ∨
    (∃ data, replies.data serde files settings = .ok data ∧
      save serde replies files settings =
        Files.write { files with configDir := true } data replies.write) := by
  unfold save FileReplies.data
  cases hhome : replies.configDir with
  | error e => exact .inl ⟨e, rfl, rfl, rfl⟩
  | ok _ =>
      cases hmade : if files.configDir then .ok () else replies.createDirAll with
      | error e => exact .inl ⟨e, by simp only [Except.bind], rfl, rfl⟩
      | ok _ =>
          cases serde.toStringPretty settings with
          | error e => exact .inl ⟨e, rfl, rfl, rfl⟩
          | ok data =>
              cases replies.settingsPath with
              | error e => exact .inl ⟨e, rfl, rfl, rfl⟩
              | ok _ => exact .inr ⟨data, rfl, rfl⟩

/-- A save is an error unless it gets through, and what it then leaves. -/
theorem save_fails_iff :
    (∃ e, (save serde replies files settings).1 = .error e) ↔
      ¬ replies.Saves serde files settings := by
  unfold FileReplies.Saves
  cases save_eq serde replies files settings with
  | inl hearly =>
      obtain ⟨e, hdata, hfailed, -⟩ := hearly
      rw [hfailed, hdata]
      simp
  | inr hlate =>
      obtain ⟨data, hgot, hsaved⟩ := hlate
      rw [hsaved, hgot]
      cases replies.write <;> simp [Files.write]

theorem save_file_of_fails (hfails : ¬ replies.Saves serde files settings) :
    (save serde replies files settings).2.settingsFile = replies.left serde files settings := by
  unfold FileReplies.left
  cases save_eq serde replies files settings with
  | inl hearly =>
      obtain ⟨e, hdata, -, hfile⟩ := hearly
      rw [hfile, hdata]
  | inr hlate =>
      obtain ⟨data, hgot, hsaved⟩ := hlate
      rw [hsaved, hgot]
      cases hwrite : replies.write with
      | written => exact absurd ⟨⟨data, hgot⟩, hwrite⟩ hfails
      | refused error => rfl
      | cut length error => rfl

theorem toStringPretty_of_data {data : List UInt8}
    (hgot : replies.data serde files settings = .ok data) :
    serde.toStringPretty settings = .ok data := by
  unfold FileReplies.data at hgot
  cases hhome : replies.configDir with
  | error e => rw [hhome] at hgot; cases hgot
  | ok _ =>
      rw [hhome] at hgot
      cases hmade : if files.configDir then .ok () else replies.createDirAll with
      | error e => rw [hmade] at hgot; cases hgot
      | ok _ =>
          rw [hmade] at hgot
          cases htext : serde.toStringPretty settings with
          | error e => rw [htext] at hgot; cases hgot
          | ok written =>
              rw [htext] at hgot
              cases hpath : replies.settingsPath with
              | error e => rw [hpath] at hgot; cases hgot
              | ok _ =>
                  rw [hpath] at hgot
                  exact hgot

/-- A save that succeeds leaves the text of the settings. -/
theorem save_ok (hsaved : (save serde replies files settings).1 = .ok ()) :
    ∃ data, serde.toStringPretty settings = .ok data ∧
      (save serde replies files settings).2.settingsFile = some data := by
  cases save_eq serde replies files settings with
  | inl hearly =>
      obtain ⟨e, -, hfailed, -⟩ := hearly
      rw [hfailed] at hsaved
      cases hsaved
  | inr hlate =>
      obtain ⟨data, hgot, hwritten⟩ := hlate
      rw [hwritten] at hsaved ⊢
      refine ⟨data, toStringPretty_of_data _ _ _ _ hgot, ?_⟩
      cases hwrite : replies.write with
      | written => rfl
      | refused error => rw [hwrite] at hsaved; cases hsaved
      | cut length error => rw [hwrite] at hsaved; cases hsaved

end

/-! ## Edits that fail -/

section

variable (serde : Serde) (replies : EditReplies) (stores : Stores)

def Failed (outcome : Except String Unit × Stores) : Prop := ∃ e, outcome.1 = .error e

/-- The same settings in memory, the same file and the same entries of every name. -/
structure Stores.Same (stores after : Stores) : Prop where
  settings : after.settings = stores.settings
  settingsFile : after.files.settingsFile = stores.files.settingsFile
  keys : ∀ name, after.keychain.keysOf name = stores.keychain.keysOf name

/-- An addition that fails changes nothing. -/
def AddKeeps (connection : Connection) (accessKey secretKey : Str) : Prop :=
  let outcome := addConnection serde replies stores connection accessKey secretKey
  Failed outcome → stores.Same outcome.2

/-- After a removal that fails every connection that the file lists has its entries. -/
def RemoveKeeps (name : Str) : Prop :=
  let outcome := removeConnection serde replies stores name
  Failed outcome → ∀ settings, load serde outcome.2.files.settingsFile = .ok settings →
    ∀ connection ∈ settings.connections,
      outcome.2.keychain.keysOf connection.name = stores.keychain.keysOf connection.name

/-- The connection ends the list and no other has its name. -/
def Settings.EndsWith (settings : Settings) (connection : Connection) : Prop :=
  ∃ others, settings.connections = others ++ [connection] ∧
    ∀ other ∈ others, other.name ≠ connection.name

theorem put_eq_iff {settings : Settings} {connection : Connection} :
    settings.put connection = settings ↔ settings.EndsWith connection := by
  constructor
  · intro hsame
    have hlist : settings.connections.filter (·.name ≠ connection.name) ++ [connection] =
        settings.connections := congrArg Settings.connections hsame
    refine ⟨_, hlist.symm, ?_⟩
    intro other hkept
    exact of_decide_eq_true (List.mem_filter.mp hkept).2
  · rintro ⟨others, hlist, hothers⟩
    have hkept : others.filter (·.name ≠ connection.name) = others :=
      List.filter_eq_self.mpr fun other hmem => decide_eq_true (hothers other hmem)
    have hremoved : [connection].filter (·.name ≠ connection.name) = [] := by simp
    show { settings with connections :=
      settings.connections.filter (·.name ≠ connection.name) ++ [connection] } = settings
    rw [hlist, List.filter_append, hkept, hremoved, List.append_nil, ← hlist]

/-- Whatever an addition has written when an operation fails was there before. -/
structure AddRepeats (connection : Connection) (accessKey secretKey : Str) : Prop where
  half : accessKey ≠ [] ∧ secretKey ≠ [] →
    replies.keychain.Sets (accessKeyLabel connection.name) →
    ¬ replies.keychain.Sets (secretKeyLabel connection.name) →
    stores.keychain (accessKeyLabel connection.name) = some accessKey
  both : accessKey ≠ [] ∧ secretKey ≠ [] →
    replies.keychain.Sets (accessKeyLabel connection.name) →
    replies.keychain.Sets (secretKeyLabel connection.name) →
    ¬ replies.files.Saves serde stores.files (stores.settings.put connection) →
    stores.keychain.keysOf connection.name = (some accessKey, some secretKey)
  unsaved : (accessKey ≠ [] ∧ secretKey ≠ [] →
      replies.keychain.Sets (accessKeyLabel connection.name) ∧
        replies.keychain.Sets (secretKeyLabel connection.name)) →
    ¬ replies.files.Saves serde stores.files (stores.settings.put connection) →
    stores.settings.EndsWith connection ∧
      replies.files.left serde stores.files (stores.settings.put connection) =
        stores.files.settingsFile

/-- A removal that does not save finds nothing to delete, or leaves a file that does not
list the name. -/
def RemoveSpares (name : Str) : Prop :=
  ¬ replies.files.Saves serde stores.files (stores.settings.retain name) →
    ∀ settings, load serde
        (replies.files.left serde stores.files (stores.settings.retain name)) = .ok settings →
      ∀ connection ∈ settings.connections, connection.name = name →
        replies.keychain.DeletesNothing stores.keychain name

variable {serde replies stores} {connection : Connection} {accessKey secretKey name : Str}

theorem addConnection_of_refused {keychain : Keychain} {e : String}
    (hgiven : accessKey ≠ [] ∧ secretKey ≠ [])
    (hstored : storeKeys replies.keychain stores.keychain connection.name accessKey secretKey =
      (.error e, keychain)) :
    addConnection serde replies stores connection accessKey secretKey =
      (.error e, { stores with keychain := keychain }) := by
  simp only [addConnection, if_pos hgiven, hstored]

/-- The part of an addition after the keys. -/
theorem addConnection_of_stored {keychain : Keychain}
    (hstored : (if accessKey ≠ [] ∧ secretKey ≠ [] then
      storeKeys replies.keychain stores.keychain connection.name accessKey secretKey
      else (.ok (), stores.keychain)) = (.ok (), keychain)) :
    AddKeeps serde replies stores connection accessKey secretKey ↔
      (¬ replies.files.Saves serde stores.files (stores.settings.put connection) →
        (∀ name, keychain.keysOf name = stores.keychain.keysOf name) ∧
          stores.settings.EndsWith connection ∧
          replies.files.left serde stores.files (stores.settings.put connection) =
            stores.files.settingsFile) := by
  simp only [AddKeeps, Failed, addConnection, hstored, ← put_eq_iff, save_fails_iff]
  constructor
  · intro hkeeps hfails
    obtain ⟨hsettings, hfile, hkeys⟩ := hkeeps hfails
    exact ⟨hkeys, hsettings, (save_file_of_fails _ _ _ _ hfails).symm.trans hfile⟩
  · intro hkeeps hfails
    obtain ⟨hkeys, hsettings, hfile⟩ := hkeeps hfails
    exact ⟨hsettings, (save_file_of_fails _ _ _ _ hfails).trans hfile, hkeys⟩

theorem addKeeps_iff :
    AddKeeps serde replies stores connection accessKey secretKey ↔
      AddRepeats serde replies stores connection accessKey secretKey := by
  by_cases hgiven : accessKey ≠ [] ∧ secretKey ≠ []
  · have hstores := storeKeys_spec replies.keychain stores.keychain connection.name accessKey
      secretKey
    generalize hstored : storeKeys replies.keychain _ connection.name accessKey secretKey =
      outcome at hstores
    cases hstores with
    | refused haccess =>
        simp only [AddKeeps, addConnection_of_refused hgiven hstored]
        refine iff_of_true (fun _ => ⟨rfl, rfl, fun _ => rfl⟩) ?_
        exact ⟨fun _ hsets => absurd hsets haccess, fun _ hsets => absurd hsets haccess,
          fun hsets => absurd (hsets hgiven).1 haccess⟩
    | half haccess hsecret =>
        simp only [AddKeeps, addConnection_of_refused hgiven hstored]
        constructor
        · intro hkeeps
          have hheld := keysOf_update_accessKey_eq_iff.mp (hkeeps ⟨_, rfl⟩).keys
          exact ⟨fun _ _ _ => hheld, fun _ _ hsets => absurd hsets hsecret,
            fun hsets => absurd (hsets hgiven).2 hsecret⟩
        · intro hrepeats _
          have hheld := hrepeats.half hgiven haccess hsecret
          exact ⟨rfl, rfl, keysOf_update_accessKey_eq_iff.mpr hheld⟩
    | whole haccess hsecret =>
        rw [addConnection_of_stored ((if_pos hgiven).trans hstored), keysOf_update_both_eq_iff]
        constructor
        · intro hkeeps
          exact ⟨fun _ _ hrefused => absurd hsecret hrefused,
            fun _ _ _ hfails => (hkeeps hfails).1, fun _ hfails => (hkeeps hfails).2⟩
        · intro hrepeats hfails
          exact ⟨hrepeats.both hgiven haccess hsecret hfails,
            hrepeats.unsaved (fun _ => ⟨haccess, hsecret⟩) hfails⟩
  · rw [addConnection_of_stored (if_neg hgiven)]
    constructor
    · intro hkeeps
      exact ⟨fun hstored => absurd hstored hgiven, fun hstored => absurd hstored hgiven,
        fun _ hfails => (hkeeps hfails).2⟩
    · intro hrepeats hfails
      exact ⟨fun _ => rfl, hrepeats.unsaved (fun hstored => absurd hstored hgiven) hfails⟩

theorem removeKeeps_iff :
    RemoveKeeps serde replies stores name ↔ RemoveSpares serde replies stores name := by
  simp only [RemoveKeeps, RemoveSpares, Failed, removeConnection, save_fails_iff]
  constructor
  · intro hkeeps hfails settings hloaded connection hmem hown
    rw [← save_file_of_fails _ _ _ _ hfails] at hloaded
    have hkept := hkeeps hfails settings hloaded connection hmem
    rw [hown] at hkept
    exact keysOf_deleteKeys_iff.mp hkept
  · intro hspares hfails settings hloaded connection hmem
    rw [save_file_of_fails _ _ _ _ hfails] at hloaded
    by_cases hown : connection.name = name
    · rw [hown]
      exact keysOf_deleteKeys_iff.mpr (hspares hfails settings hloaded connection hmem hown)
    · exact keysOf_deleteKeys_of_ne hown

/-- An edit that fails keeps all stores in agreement exactly when nothing was written on
the way that was not there before. -/
theorem connectionEdits_keep_iff (serde : Serde) (replies : EditReplies) (stores : Stores)
    (connection : Connection) (accessKey secretKey name : Str) :
    (AddKeeps serde replies stores connection accessKey secretKey ↔
      AddRepeats serde replies stores connection accessKey secretKey) ∧
    (RemoveKeeps serde replies stores name ↔ RemoveSpares serde replies stores name) :=
  ⟨addKeeps_iff, removeKeeps_iff⟩

def prod : Connection := ⟨"prod".toList, "https://s3.example.com".toList, "us-east-1".toList⟩

def prodKeychain : Keychain := fun label =>
  if label = accessKeyLabel prod.name then some "OLDKEY".toList
  else if label = secretKeyLabel prod.name then some "old-secret".toList
  else none

/-- A keychain that is locked after it has taken the access key. -/
def locksHalfway : KeychainReplies where
  newEntry := fun _ => .ok ()
  setPassword := fun label =>
    if label = secretKeyLabel prod.name then .error "keychain locked" else .ok ()
  getPassword := fun _ => .ok ()
  deleteCredential := fun _ => .ok ()

/-- New keys for a connection: the edit fails, and the connection then has the new access
key and the old secret key. -/
theorem connectionEdits_mix_keys :
    getKeys locksHalfway prodKeychain prod.name =
      .ok (some ("OLDKEY".toList, "old-secret".toList)) ∧
    ∀ serde files fileReplies,
      let stores : Stores := ⟨⟨[prod], .default⟩, prodKeychain, files⟩
      let outcome := addConnection serde ⟨locksHalfway, fileReplies⟩ stores prod
        "NEWKEY".toList "new-secret".toList
      outcome.1 = .error "keychain locked" ∧
        getKeys locksHalfway outcome.2.keychain prod.name =
          .ok (some ("NEWKEY".toList, "old-secret".toList)) ∧
        ¬ AddKeeps serde ⟨locksHalfway, fileReplies⟩ stores prod "NEWKEY".toList
          "new-secret".toList := by
  refine ⟨by decide, ?_⟩
  intro serde files fileReplies
  let after := (storeKeys locksHalfway prodKeychain prod.name "NEWKEY".toList
    "new-secret".toList).2
  have hstored : storeKeys locksHalfway prodKeychain prod.name "NEWKEY".toList
      "new-secret".toList = (.error "keychain locked", after) := Prod.ext (by decide) rfl
  have hfailed := @addConnection_of_refused serde ⟨locksHalfway, fileReplies⟩
    ⟨⟨[prod], .default⟩, prodKeychain, files⟩ prod _ _ _ _ (by decide) hstored
  simp only [AddKeeps, hfailed]
  refine ⟨trivial, by decide, ?_⟩
  intro hkeeps
  have hsame : after.keysOf prod.name = prodKeychain.keysOf prod.name :=
    (hkeeps ⟨_, rfl⟩).keys prod.name
  exact absurd hsame (by decide)

/-! ## What the screen sees of an edit -/

section

variable {surroundings : Surroundings} {serde : Serde} {replies : EditReplies} {stores : Stores}
  {connection : Connection} {accessKey secretKey name : Str}

theorem addConnection_refines
    (hstored : surroundings.storeKeys =
      (storeKeys replies.keychain stores.keychain connection.name accessKey secretKey).1)
    (hsaved : surroundings.saveSettings =
      (save serde replies.files stores.files (stores.settings.put connection)).1) :
    AbixioUi.addConnection surroundings stores.settings.connections connection accessKey
        secretKey =
      let outcome := addConnection serde replies stores connection accessKey secretKey
      (outcome.2.settings.connections, outcome.1) := by
  unfold AbixioUi.addConnection addConnection
  by_cases hgiven : accessKey ≠ [] ∧ secretKey ≠ []
  · rw [if_pos hgiven, if_pos hgiven, hstored]
    cases storeKeys replies.keychain stores.keychain connection.name accessKey secretKey with
    | mk result keychain =>
        cases result with
        | error e => rfl
        | ok _ => exact Prod.ext rfl hsaved
  · rw [if_neg hgiven, if_neg hgiven]
    exact Prod.ext rfl hsaved

theorem removeConnection_refines
    (hsaved : surroundings.saveSettings =
      (save serde replies.files stores.files (stores.settings.retain name)).1) :
    AbixioUi.removeConnection surroundings stores.settings.connections name =
      let outcome := removeConnection serde replies stores name
      (outcome.2.settings.connections, outcome.1) :=
  Prod.ext rfl hsaved

end

end

end AbixioUi.Config
