import AbixioUi.App.Active
import AbixioUi.App.CurrentConnection

/-! # The pickers of a connection

The transfer modal and both sides of the sync screen let the user pick a connection. They
offer the connected server first, under the name of the active connection, and then every
other saved connection. Picking an option sends an id, and what is shown as selected is
made from an id again.
-/

namespace AbixioUi

open Foundation

/-! ## Options -/

/-- What the connected server is called where no connection is active. -/
def unnamedConnection : Str := "Current connection".toList

def App.currentConnectionLabel (app : App) : Str :=
  app.activeConnection.getD unnamedConnection

/-- The saved connections that the pickers offer beside the connected server. -/
def App.otherConnections (app : App) : List Connection :=
  app.connections.filter fun connection => app.activeConnection ≠ some connection.name

def App.availableConnectionOptions (app : App) : List Str :=
  app.currentConnectionLabel :: app.otherConnections.map (·.name)

/-- The option that is shown as selected for an id. -/
def App.selectedConnectionLabel (app : App) (connectionId : Str) : Str :=
  if connectionId = CURRENT_CONNECTION_ID then app.currentConnectionLabel else connectionId

def App.selectedTransferConnectionLabel (app : App) : Option Str :=
  app.transfer.map fun transfer => app.selectedConnectionLabel transfer.destinationConnectionId

/-- The id that the pickers send for an option. -/
def pickedConnectionId (label : Str) : Str :=
  if label = unnamedConnection then CURRENT_CONNECTION_ID else label

/-! ## What an option stands for -/

/-- The options with the servers they are offered for. -/
def App.offers (app : App) : List (Str × Str) :=
  (app.currentConnectionLabel, app.client.endpoint) ::
    app.otherConnections.map fun connection =>
      (connection.name, trimEndMatches '/' connection.endpoint)

/-- No two options look the same, picking one leads to the server it is offered for, and
picking what is then shown as selected leads there again. -/
structure App.PickersLead (app : App) : Prop where
  distinct : app.availableConnectionOptions.Nodup
  leads : ∀ offer ∈ app.offers, app.serverOf (pickedConnectionId offer.1) = some offer.2
  again : ∀ label,
    app.serverOf (pickedConnectionId (app.selectedConnectionLabel (pickedConnectionId label))) =
      app.serverOf (pickedConnectionId label)

/-- Connections as the form saves them. -/
structure SavedNames (connections : List Connection) : Prop where
  valid : ∀ connection ∈ connections, isValidName connection.name = true
  distinct : (connections.map (·.name)).Nodup

/-- The names of the connections are in order, and the active one has a name of its own. -/
structure App.NamesInOrder (app : App) : Prop where
  saved : SavedNames app.connections
  active : app.activeConnection ≠ some unnamedConnection

section Names

variable {app app' : App} {name : Str}

theorem ne_of_isValidName {other : Str} (h : isValidName name = true)
    (hother : isValidName other = false) : name ≠ other := by
  rintro rfl
  rw [h] at hother
  cases hother

theorem pickedConnectionId_of_valid (h : isValidName name = true) :
    pickedConnectionId name = name :=
  if_neg (ne_of_isValidName h (by decide))

/-- A saved connection is found under its name. -/
theorem SavedNames.serverOf (h : SavedNames app.connections) {connection : Connection}
    (hmem : connection ∈ app.connections) :
    app.serverOf connection.name = some (trimEndMatches '/' connection.endpoint) := by
  rw [serverOf_saved (ne_of_isValidName (h.valid connection hmem) (by decide)),
    find?_key_of_nodup h.distinct hmem]
  rfl

theorem SavedNames.options_nodup (h : SavedNames app.connections) :
    app.availableConnectionOptions.Nodup := by
  refine List.nodup_cons.mpr ⟨fun hmem => ?_, nodup_keys_filter h.distinct _⟩
  obtain ⟨connection, hother, hname⟩ := List.mem_map.mp hmem
  obtain ⟨hsaved, hinactive⟩ := List.mem_filter.mp hother
  unfold App.currentConnectionLabel at hname
  cases hactive : app.activeConnection with
  | none =>
      rw [hactive] at hname
      exact ne_of_isValidName (h.valid connection hsaved) (by decide) hname
  | some active =>
      rw [hactive] at hname hinactive
      exact of_decide_eq_true hinactive (congrArg some hname.symm)

/-- Picking the first option is asking for the current connection. -/
theorem App.NamesInOrder.picked_current (h : app.NamesInOrder) :
    pickedConnectionId app.currentConnectionLabel = app.currentConnectionId := by
  unfold App.currentConnectionLabel App.currentConnectionId
  cases hactive : app.activeConnection with
  | none => rfl
  | some active =>
      have hne : active ≠ unnamedConnection := by
        rintro rfl
        exact h.active hactive
      exact if_neg hne

/-- The pickers lead where they say exactly while the name of the current connection and
the client agree. -/
theorem App.NamesInOrder.pickersLead_iff (h : app.NamesInOrder) :
    app.PickersLead ↔ app.CurrentConnected := by
  rw [currentConnected_iff, ← h.picked_current]
  constructor
  · intro hpickers
    exact hpickers.leads _ List.mem_cons_self
  · intro hcurrent
    refine ⟨h.saved.options_nodup, fun offer hoffer => ?_, fun label => ?_⟩
    · rcases List.mem_cons.mp hoffer with rfl | hother
      · exact hcurrent
      · obtain ⟨connection, hmem, rfl⟩ := List.mem_map.mp hother
        have hsaved := (List.mem_filter.mp hmem).1
        rw [pickedConnectionId_of_valid (h.saved.valid connection hsaved)]
        exact h.saved.serverOf hsaved
    · unfold App.selectedConnectionLabel
      by_cases hid : pickedConnectionId label = CURRENT_CONNECTION_ID
      · rw [if_pos hid, hcurrent, hid]
        exact serverOf_current.symm
      · have hlabel : label ≠ unnamedConnection := fun heq => hid (if_pos heq)
        have hpicked : pickedConnectionId label = label := if_neg hlabel
        rw [if_neg hid, hpicked, hpicked]

end Names

/-! ## Steps -/

section Steps

variable (platform : Platform) (surroundings : Surroundings) {app : App}

theorem newConnection_of_saves {message : Message} {connection : Connection}
    (h : app.saves surroundings message = some connection) :
    app.newConnection = .ok connection := by
  cases message with
  | addConnection =>
      simp only [App.saves] at h
      split at h
      next => cases h
      next saved hform =>
        split at h
        next => cases h
        next => rw [hform, Option.some.inj h]
  | _ => cases h

theorem SavedNames.filter {connections : List Connection} (h : SavedNames connections)
    (p : Connection → Bool) : SavedNames (connections.filter p) where
  valid := fun connection hmem => h.valid connection (List.mem_of_mem_filter hmem)
  distinct := nodup_keys_filter h.distinct p

/-- The form saves under valid names, and replaces what it finds under them. -/
theorem update_savedNames (h : SavedNames app.connections) (message : Message) :
    SavedNames (app.update platform surroundings message).1.connections := by
  rcases update_connections platform surroundings app message with
    ⟨connection, hsaves, heq⟩ | ⟨-, heq | ⟨name, heq⟩⟩
  · rw [heq]
    refine ⟨fun other hother => ?_, nodup_keys_replace h.distinct connection⟩
    rcases List.mem_append.mp hother with hkept | hnew
    · exact h.valid other (List.mem_of_mem_filter hkept)
    · rw [List.mem_singleton.mp hnew]
      exact newConnection_isValidName (newConnection_of_saves surroundings hsaves)
  · rw [heq]
    exact h
  · rw [heq]
    exact h.filter _

/-- A connection becomes active under a saved name or the launcher's. -/
theorem App.NamesInOrder.update_activeConnection (h : app.NamesInOrder) (message : Message) :
    (app.update platform surroundings message).1.activeConnection ≠ some unnamedConnection := by
  cases hactivates : message.activates with
  | false =>
      rw [update_activeConnection_eq platform surroundings app hactivates]
      exact h.active
  | true =>
      cases message with
      | connectTo name =>
          simp only [App.update, handleConnectTo]
          cases hfind : app.connections.find? (·.name = name) with
          | none => exact h.active
          | some connection =>
              cases hkeys : surroundings.resolveKeys connection.name with
              | error e =>
                  simp only [hkeys]
                  exact h.active
              | ok credentials =>
                  have hname : connection.name = name := by simpa using List.find?_some hfind
                  have hvalid := h.saved.valid connection (List.mem_of_find?_eq_some hfind)
                  simp only [hkeys, S3Client.new]
                  intro heq
                  exact ne_of_isValidName hvalid (by decide)
                    (hname.trans (Option.some.inj heq))
      | removeConnection name =>
          simp only [App.update, handleRemoveConnection]
          split
          next => simp
          next => exact h.active
      | serverAutoConnect endpoint noAuth =>
          simp only [App.update, handleServerAutoConnect]
          split
          next =>
            intro heq
            exact absurd (Option.some.inj heq) (by decide)
          next => exact h.active
      | _ => cases hactivates

theorem App.NamesInOrder.update (h : app.NamesInOrder) (message : Message) :
    (app.update platform surroundings message).1.NamesInOrder where
  saved := update_savedNames platform surroundings h.saved message
  active := h.update_activeConnection platform surroundings message

/-- The name and the client agree after exactly the messages that let them, whatever else
the application is asked to do. -/
theorem update_keepsCurrent_iff (h : app.CurrentConnected) (message : Message) :
    (app.update platform surroundings message).1.CurrentConnected ↔
      app.KeepsCurrent surroundings message := by
  cases hservers : message.ofServers with
  | true => exact update_connected_iff h hservers
  | false =>
      have hrewires : message.rewires = false := by
        cases message with
        | connectTo _ | addConnection | removeConnection _ | serverAutoConnect _ _ =>
            cases hservers
        | _ => rfl
      have hactivates : message.activates = false := by
        cases message with
        | connectTo _ | removeConnection _ | serverAutoConnect _ _ => cases hservers
        | _ => rfl
      have hleaves := update_leavesServers platform surroundings app hrewires
      refine iff_of_true ((currentConnected_congr hleaves.client_eq hleaves.connections_eq
        (update_activeConnection_eq platform surroundings app hactivates)).mpr h) ?_
      cases message with
      | addConnection | serverAutoConnect _ _ => cases hservers
      | _ => trivial

variable {world : World}

theorem step_namesInOrder (h : world.app.NamesInOrder) (event : WorldEvent) :
    (world.step platform event).app.NamesInOrder := by
  rw [step_app]
  cases hreceived : world.received event with
  | none =>
      rcases handle_of_not_received platform hreceived with heq | ⟨browsing, -, heq⟩
      · rw [heq]
        exact h
      · rw [heq]
        exact ⟨h.saved, h.active⟩
  | some received =>
      rw [handle_of_received platform hreceived]
      exact h.update platform received.1 received.2

theorem step_keepsCurrent_iff (h : world.app.CurrentConnected) (event : WorldEvent) :
    (world.step platform event).app.CurrentConnected ↔ world.KeepsCurrent event := by
  rw [step_app]
  cases hreceived : world.received event with
  | none =>
      have hkeeps : world.KeepsCurrent event := by
        intro surroundings message hsome
        rw [hreceived] at hsome
        cases hsome
      rcases handle_of_not_received platform hreceived with heq | ⟨browsing, -, heq⟩
      · rw [heq]
        exact iff_of_true h hkeeps
      · rw [heq]
        exact iff_of_true ((currentConnected_congr rfl rfl rfl).mpr h) hkeeps
  | some received =>
      rw [handle_of_received platform hreceived, update_keepsCurrent_iff platform _ h]
      constructor
      · intro hkeeps surroundings message hsome
        obtain rfl := Option.some.inj (hreceived.symm.trans hsome)
        exact hkeeps
      · intro hkeeps
        exact hkeeps received.1 received.2 hreceived

end Steps

/-! ## Runs -/

/-- From connections as the form saves them, the pickers lead where they say in every
state of a run exactly if no save under the active name changes the server and no
auto-connect takes effect: the launcher's name is not one that the form saves. -/
theorem pickers_lead_exact (platform : Platform) {connections : List Connection}
    (hnames : SavedNames connections) (serverConfig : ServerConfig) (startup : StartupOptions)
    (events : List WorldEvent) :
    (∀ earlier, earlier <+: events →
      (run (World.step platform) (World.start connections serverConfig startup)
        earlier).app.PickersLead) ↔
      Along (World.step platform) World.KeepsCurrent
        (World.start connections serverConfig startup) events := by
  have hstart : (World.start connections serverConfig startup).app.NamesInOrder :=
    ⟨hnames, fun heq => by cases heq⟩
  refine forall_prefix_iff_along (fun world : World => world.app.NamesInOrder)
    (fun world : World => world.app.PickersLead)
    (fun _ event h _ => step_namesInOrder platform h event)
    (fun _ event h _ hlead => ?_) hstart
    (hstart.pickersLead_iff.mpr (currentConnected_iff.mpr serverOf_current))
    (along_true _ events)
  rw [(step_namesInOrder platform h event).pickersLead_iff]
  exact step_keepsCurrent_iff platform (h.pickersLead_iff.mp hlead) event

/-- Two connections are saved, and the second one is used. -/
def usingTheSecond : List WorldEvent :=
  [.user calm (.connectTo "work".toList), .user calm .openCopyObject]

def homeAndWork : List Connection :=
  [⟨"home".toList, "http://a".toList, "us-east-1".toList⟩,
    ⟨"work".toList, "http://b/".toList, "us-east-1".toList⟩]

theorem homeAndWork_savedNames : SavedNames homeAndWork where
  valid := by decide
  distinct := by decide

theorem pickers_lead_exact_used :
    (run (World.step .unix) (World.start homeAndWork oneVolume ⟨none, none⟩)
      usingTheSecond).app.PickersLead := by
  refine (pickers_lead_exact .unix homeAndWork_savedNames oneVolume ⟨none, none⟩
    usingTheSecond).mpr ?_ usingTheSecond (List.prefix_refl _)
  refine ⟨fun _ _ h => ?_, fun _ _ h => ?_, trivial⟩
  · cases h
    trivial
  · cases h
    trivial

/-- The second connection comes first then, and the first one is offered beside it. -/
example :
    (run (World.step .unix) (World.start homeAndWork oneVolume ⟨none, none⟩)
      usingTheSecond).app.offers =
        [("work".toList, "http://b".toList), ("home".toList, "http://a".toList)] := by
  decide

end AbixioUi
