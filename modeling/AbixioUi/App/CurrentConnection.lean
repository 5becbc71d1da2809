import AbixioUi.App.Redirect

/-! # The current connection

The server that is browsed is held three times: as the client, as the name of the
active connection and as the saved connection of that name. A sync or a transfer
starts from the name, so it reaches the browsed server while the three agree.
-/

namespace AbixioUi

open Foundation

/-! ## Agreement -/

/-- Whoever asks for the current connection, with a keychain that answers, gets a client
for the server of the application's own client. -/
def App.CurrentConnected (app : App) : Prop :=
  ∀ surroundings : Surroundings, surroundings.KeysReadable →
    ∃ client, app.makeClientForConnection surroundings app.currentConnectionId = .ok client ∧
      client.endpoint = app.client.endpoint

/-- The name that the launched server is connected under. -/
def serverConnectionName : Str := "(server)".toList

/-- The messages of the connection screen and of the server launcher. -/
def Message.ofServers : Message → Bool
  | .connectTo _ | .addConnection | .editConnection _ | .removeConnection _
  | .newConnNameChanged _ | .newConnEndpointChanged _ | .newConnRegionChanged _
  | .newConnAccessKeyChanged _ | .newConnSecretKeyChanged _
  | .startServer | .stopServer | .serverExited | .serverAutoConnect _ _ => true
  | _ => false

/-- The message lets the name and the client agree: an auto-connect finds its server saved
under the launcher's name, and a save under the active name keeps the server. -/
def App.KeepsCurrent (surroundings : Surroundings) (app : App) : Message → Prop
  | .serverAutoConnect endpoint _ =>
      app.serverRunning = true →
        app.serverOf serverConnectionName = some (trimEndMatches '/' endpoint)
  | .addConnection =>
      ∀ connection, app.saves surroundings .addConnection = some connection →
        app.activeConnection = some connection.name →
        trimEndMatches '/' connection.endpoint = app.client.endpoint
  | _ => True

section Update

variable {platform : Platform} {surroundings : Surroundings} {app app' : App}

theorem currentConnected_iff :
    app.CurrentConnected ↔ app.serverOf app.currentConnectionId = some app.client.endpoint := by
  constructor
  · intro h
    obtain ⟨client, hclient, hserver⟩ := h calm calm_keysReadable
    rw [serverOf_of_client hclient, hserver]
  · intro h surroundings hkeys
    exact client_of_serverOf hkeys h

theorem serverOf_current : app.serverOf CURRENT_CONNECTION_ID = some app.client.endpoint :=
  if_pos rfl

theorem serverOf_saved {connectionId : Str} (h : connectionId ≠ CURRENT_CONNECTION_ID) :
    app.serverOf connectionId =
      (app.connections.find? (·.name = connectionId)).map fun connection =>
        trimEndMatches '/' connection.endpoint :=
  if_neg h

theorem serverOf_congr {connectionId : Str} (h : connectionId ≠ CURRENT_CONNECTION_ID)
    (hconnections : app'.connections = app.connections) :
    app'.serverOf connectionId = app.serverOf connectionId := by
  rw [serverOf_saved h, serverOf_saved h, hconnections]

/-- Agreement depends on the client, the name and the saved connections. -/
theorem currentConnected_congr (hclient : app'.client = app.client)
    (hconnections : app'.connections = app.connections)
    (hactive : app'.activeConnection = app.activeConnection) :
    app'.CurrentConnected ↔ app.CurrentConnected := by
  rw [currentConnected_iff, currentConnected_iff]
  unfold App.currentConnectionId App.serverOf
  rw [hclient, hconnections, hactive]

theorem newConnection_isValidName {connection : Connection}
    (h : app.newConnection = .ok connection) : isValidName connection.name = true := by
  unfold App.newConnection at h
  simp only at h
  split_ifs at h with hempty hvalid
  all_goals
    rw [← Except.ok.inj h]
    exact hvalid

/-- The form saves no connection under the id of the current one. -/
theorem saves_name_ne {message : Message} {connection : Connection}
    (h : app.saves surroundings message = some connection) :
    connection.name ≠ CURRENT_CONNECTION_ID := by
  have hvalid : isValidName connection.name = true := by
    cases message with
    | addConnection =>
        simp only [App.saves] at h
        split at h
        next => cases h
        next saved hform =>
          split at h
          next => cases h
          next =>
            rw [← Option.some.inj h]
            exact newConnection_isValidName hform
    | _ => cases h
  intro hname
  rw [hname] at hvalid
  exact absurd hvalid (by decide)

theorem connectTo_connected (h : app.CurrentConnected) (name : Str) :
    (handleConnectTo surroundings app name).1.CurrentConnected := by
  unfold handleConnectTo
  cases hfind : app.connections.find? (·.name = name) with
  | none => exact (currentConnected_congr rfl rfl rfl).mpr h
  | some connection =>
      cases hkeys : surroundings.resolveKeys connection.name with
      | error error =>
          simp only [hkeys]
          exact (currentConnected_congr rfl rfl rfl).mpr h
      | ok credentials =>
          simp only [hkeys, S3Client.new]
          apply currentConnected_iff.mpr
          by_cases hname : name = CURRENT_CONNECTION_ID
          · subst hname
            exact serverOf_current
          · refine (serverOf_saved hname).trans ?_
            simp only [App.connected, hfind, Option.map_some]

theorem removeConnection_connected (h : app.CurrentConnected) (name : Str) :
    (handleRemoveConnection surroundings app name).1.CurrentConnected := by
  rw [currentConnected_iff] at h ⊢
  unfold handleRemoveConnection
  by_cases hactive : app.activeConnection = some name
  · simp only [if_pos hactive]
    exact serverOf_current
  · simp only [if_neg hactive, removeConnection, App.currentConnectionId] at h ⊢
    by_cases hcurrent : app.activeConnection.getD CURRENT_CONNECTION_ID = CURRENT_CONNECTION_ID
    · rw [hcurrent]
      exact serverOf_current
    · have hne : name ≠ app.activeConnection.getD CURRENT_CONNECTION_ID := by
        intro heq
        cases hsome : app.activeConnection with
        | none => exact hcurrent (by rw [hsome]; rfl)
        | some active =>
            rw [hsome] at heq
            exact hactive (by rw [hsome, heq]; rfl)
      rw [serverOf_saved hcurrent] at h ⊢
      simp only
      rw [find?_filter_name_of_ne _ hne]
      exact h

/-- A save redirects the id that it saves under, and no other. -/
theorem addConnection_serverOf {connectionId : Str} (h : connectionId ≠ CURRENT_CONNECTION_ID) :
    (app.update platform surroundings .addConnection).1.serverOf connectionId =
      match app.saves surroundings .addConnection with
      | some saved =>
          if saved.name = connectionId then some (trimEndMatches '/' saved.endpoint)
          else app.serverOf connectionId
      | none => app.serverOf connectionId := by
  rw [serverOf_saved h, serverOf_saved h]
  cases hform : app.newConnection with
  | error error => simp only [App.update, handleAddConnection, App.saves, hform]
  | ok connection =>
      simp only [App.update, handleAddConnection_connections surroundings app hform, App.saves,
        hform, addConnection]
      generalize (if trim app.newConnAccessKey ≠ [] ∧ app.newConnSecretKey ≠ [] then
        surroundings.storeKeys else .ok ()) = stored
      cases stored with
      | error error => rfl
      | ok _ =>
          simp only [List.find?_append]
          by_cases hname : connection.name = connectionId
          · rw [← hname, find?_filter_name_self]
            simp
          · rw [find?_filter_name_of_ne _ hname]
            simp [hname]

theorem addConnection_active :
    (app.update platform surroundings .addConnection).1.activeConnection =
      app.activeConnection := by
  simp only [App.update, handleAddConnection]
  split
  next => rfl
  next =>
    split
    next => rfl
    next => rfl

theorem addConnection_connected_iff (h : app.CurrentConnected) :
    (app.update platform surroundings .addConnection).1.CurrentConnected ↔
      app.KeepsCurrent surroundings .addConnection := by
  have hclient := update_client platform surroundings app .addConnection
  simp only [App.switchesTo, Option.getD_none] at hclient
  rw [currentConnected_iff] at h ⊢
  simp only [App.currentConnectionId, addConnection_active, hclient, App.KeepsCurrent] at h ⊢
  by_cases hcurrent : app.activeConnection.getD CURRENT_CONNECTION_ID = CURRENT_CONNECTION_ID
  · rw [hcurrent, serverOf_current, hclient]
    refine iff_of_true rfl fun connection hsaves hname => ?_
    rw [hname] at hcurrent
    exact absurd hcurrent (saves_name_ne hsaves)
  · obtain ⟨active, hactive⟩ : ∃ active, app.activeConnection = some active := by
      cases hactive : app.activeConnection with
      | none => exact absurd (by rw [hactive]; rfl) hcurrent
      | some active => exact ⟨active, rfl⟩
    rw [hactive, Option.getD_some] at h hcurrent
    rw [hactive, Option.getD_some, addConnection_serverOf hcurrent, h]
    cases app.saves surroundings .addConnection with
    | none => simp
    | some saved =>
        by_cases hname : saved.name = active
        · simp [hname]
        · simp [hname, Ne.symm hname]

theorem autoConnect_connected_iff (h : app.CurrentConnected) (endpoint : Str) (noAuth : Bool) :
    (handleServerAutoConnect app endpoint noAuth).1.CurrentConnected ↔
      app.KeepsCurrent surroundings (.serverAutoConnect endpoint noAuth) := by
  show _ ↔ (app.serverRunning = true →
    app.serverOf serverConnectionName = some (trimEndMatches '/' endpoint))
  have hne : serverConnectionName ≠ CURRENT_CONNECTION_ID := by decide
  unfold handleServerAutoConnect
  by_cases hrunning : app.serverRunning = true
  · rw [if_pos hrunning, currentConnected_iff, forall_prop_of_true hrunning]
    exact (serverOf_congr hne rfl).congr_left
  · rw [if_neg hrunning]
    exact iff_of_true h fun hrun => absurd hrun hrunning

/-- The name and the client agree after exactly the messages that let them. -/
theorem update_connected_iff (h : app.CurrentConnected) {message : Message}
    (hservers : message.ofServers = true) :
    (app.update platform surroundings message).1.CurrentConnected ↔
      app.KeepsCurrent surroundings message := by
  cases message with
  | addConnection => exact addConnection_connected_iff h
  | serverAutoConnect endpoint noAuth => exact autoConnect_connected_iff h endpoint noAuth
  | connectTo name => exact iff_of_true (connectTo_connected h name) trivial
  | removeConnection name => exact iff_of_true (removeConnection_connected h name) trivial
  | editConnection name =>
      refine iff_of_true ?_ trivial
      simp only [App.update, handleEditConnection]
      split
      next => exact h
      next => exact (currentConnected_congr rfl rfl rfl).mpr h
  | startServer =>
      refine iff_of_true ?_ trivial
      simp only [App.update, handleStartServer]
      split
      next => exact h
      next =>
        split
        next => exact (currentConnected_congr rfl rfl rfl).mpr h
        next =>
          split
          next => exact (currentConnected_congr rfl rfl rfl).mpr h
          next => exact (currentConnected_congr rfl rfl rfl).mpr h
  | newConnNameChanged _ | newConnEndpointChanged _ | newConnRegionChanged _
  | newConnAccessKeyChanged _ | newConnSecretKeyChanged _ | stopServer | serverExited =>
      exact iff_of_true ((currentConnected_congr rfl rfl rfl).mpr h) trivial
  | _ => cases hservers

end Update

/-! ## Runs -/

/-- Whatever message the event brings comes from these two screens. -/
def World.OfServers (world : World) (event : WorldEvent) : Prop :=
  ∀ surroundings message, world.received event = some (surroundings, message) →
    message.ofServers = true

/-- Whatever message the event brings lets the name and the client agree. -/
def World.KeepsCurrent (world : World) (event : WorldEvent) : Prop :=
  ∀ surroundings message, world.received event = some (surroundings, message) →
    world.app.KeepsCurrent surroundings message

theorem step_connected_iff (platform : Platform) {world : World} {event : WorldEvent}
    (hservers : world.OfServers event) (h : world.app.CurrentConnected) :
    (world.step platform event).app.CurrentConnected ↔ world.KeepsCurrent event := by
  rw [step_app]
  cases hreceived : world.received event with
  | none =>
      have hkeeps : world.KeepsCurrent event := by
        intro surroundings message hsome
        cases hreceived.symm.trans hsome
      rcases handle_of_not_received platform hreceived with heq | ⟨browsing, -, heq⟩
      · rw [heq]
        exact iff_of_true h hkeeps
      · rw [heq]
        exact iff_of_true ((currentConnected_congr rfl rfl rfl).mpr h) hkeeps
  | some received =>
      obtain ⟨surroundings, message⟩ := received
      rw [handle_of_received platform hreceived,
        update_connected_iff h (hservers surroundings message hreceived)]
      constructor
      · intro hkeeps surroundings' message' hsome
        cases hreceived.symm.trans hsome
        exact hkeeps
      · intro hkeeps
        exact hkeeps surroundings message hreceived

/-- In a run of the connection screen and the server launcher, the current connection id
denotes the connected server in every state exactly if every auto-connect finds its server
saved under the launcher's name, and no save under the active name changes the server. -/
theorem currentConnection_denotes_iff (platform : Platform) (connections : List Connection)
    (serverConfig : ServerConfig) (startup : StartupOptions) {events : List WorldEvent}
    (hservers : Along (World.step platform) World.OfServers
      (World.start connections serverConfig startup) events) :
    (∀ earlier, earlier <+: events →
      (run (World.step platform) (World.start connections serverConfig startup)
        earlier).app.CurrentConnected) ↔
      Along (World.step platform) World.KeepsCurrent
        (World.start connections serverConfig startup) events := by
  have hstart : (World.start connections serverConfig startup).app.CurrentConnected :=
    currentConnected_iff.mpr serverOf_current
  exact forall_prefix_iff_along (fun _ => True) (fun world => world.app.CurrentConnected)
    (fun _ _ _ _ => trivial) (fun _ _ _ hservers h => step_connected_iff platform hservers h)
    trivial hstart hservers

/-- The form of a connection to server `a`, filled in and saved; then the connection is used. -/
def connectingToA : List WorldEvent :=
  [.user calm (.newConnNameChanged "home".toList),
    .user calm (.newConnEndpointChanged "http://a".toList), .user calm .addConnection,
    .user calm (.connectTo "home".toList)]

theorem currentConnection_denotes_iff_saved :
    (run (World.step .unix) (World.start [] oneVolume ⟨none, none⟩)
      connectingToA).app.CurrentConnected := by
  have hservers : Along (World.step .unix) World.OfServers
      (World.start [] oneVolume ⟨none, none⟩) connectingToA := by
    refine ⟨fun _ _ h => ?_, fun _ _ h => ?_, fun _ _ h => ?_, fun _ _ h => ?_, trivial⟩ <;>
      cases h <;> rfl
  have hkeeps : Along (World.step .unix) World.KeepsCurrent
      (World.start [] oneVolume ⟨none, none⟩) connectingToA := by
    refine ⟨fun _ _ h => ?_, fun _ _ h => ?_, fun _ _ h => ?_, fun _ _ h => ?_, trivial⟩
    · cases h
      trivial
    · cases h
      trivial
    · cases h
      intro connection _ hactive
      cases hactive
    · cases h
      trivial
  exact (currentConnection_denotes_iff .unix [] oneVolume ⟨none, none⟩ hservers).mpr hkeeps
    connectingToA (List.prefix_refl _)

/-- The launched server is connected under a name that nothing is saved under. -/
theorem autoConnect_name_unsaved :
    ¬ ∀ (platform : Platform) (connections : List Connection) (serverConfig : ServerConfig)
      (startup : StartupOptions) (events : List WorldEvent),
      Along (World.step platform) World.OfServers (World.start connections serverConfig startup)
          events →
        (run (World.step platform) (World.start connections serverConfig startup)
          events).app.CurrentConnected := by
  intro h
  have hservers : Along (World.step .unix) World.OfServers
      (World.start [] oneVolume ⟨none, none⟩)
      [.user calm .startServer, .deliver calm 0 emptyReplies] := by
    refine ⟨fun _ _ h => ?_, fun _ _ h => ?_, trivial⟩ <;> cases h <;> rfl
  have hconnected := currentConnected_iff.mp (h .unix [] oneVolume ⟨none, none⟩ _ hservers)
  revert hconnected
  decide

end AbixioUi
