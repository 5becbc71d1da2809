import AbixioUi.App.Sides

/-! # Where requests go

A connection id is looked up again for every request. Planned and running work
survives a change of the connections, so its steps follow the id to whatever server
it stands for by then.
-/

namespace AbixioUi

open Foundation

/-! ## Sync handlers -/

section Sync

variable {surroundings : Surroundings} {app app' : App}

/-- A task that looks up its connections gets the servers they stand for. -/
theorem runSync_addressed (spec : PendingSyncTask) :
    app.Addresses surroundings (.runSync spec (spec.clients surroundings app)) := by
  cases spec with
  | transfer item =>
      simp only [PendingSyncTask.clients]
      cases hsource : app.endpointClient surroundings item.source with
      | error error => exact addresses_of_nil rfl
      | ok sourceClient =>
          cases hdestination : app.endpointClient surroundings item.destination with
          | error error => exact addresses_of_nil rfl
          | ok destinationClient =>
              intro request hrequest
              rcases List.mem_append.mp hrequest with hmem | hmem
              · exact endpointClient_requests hsource request hmem
              · exact endpointClient_requests hdestination request hmem
  | deleteRemote connectionId bucket keys bytes label =>
      simp only [PendingSyncTask.clients]
      cases hclient : app.makeClientForConnection surroundings connectionId with
      | error error => exact addresses_of_nil rfl
      | ok client =>
          intro request hrequest
          obtain rfl : request = (connectionId, client.endpoint) :=
            List.mem_singleton.mp hrequest
          exact ⟨client, hclient, rfl⟩
  | deleteLocal path bytes label => exact addresses_of_nil rfl

theorem enumerateTask_addressed {params : EndpointParams} {source : Bool} {task : AppTask}
    (h : enumerateTask surroundings app params source = .ok task) :
    app.Addresses surroundings task := by
  unfold enumerateTask at h
  cases hkind : params.kind with
  | «local» =>
      cases hpath : params.localPath with
      | none => simp [hkind, hpath] at h
      | some path =>
          simp only [hkind, hpath, Except.ok.injEq] at h
          subst h
          apply addresses_of_nil
          cases source <;> rfl
  | s3 =>
      cases hclient : app.makeClientForConnection surroundings params.connectionId with
      | error e => simp [hkind, hclient, bind, Except.bind] at h
      | ok client =>
          simp only [hkind, hclient, bind, Except.bind, pure, Except.pure, Except.ok.injEq] at h
          subst h
          have hrequests : ((if source = true then AppTask.enumerateSyncSource params
              else AppTask.enumerateSyncDestination params) (some client)).requests =
              [(params.connectionId, client.endpoint)] := by
            cases source <;> rfl
          intro request hrequest
          rw [hrequests, List.mem_singleton] at hrequest
          subst hrequest
          exact ⟨client, hclient, rfl⟩

theorem startEnumeration_leavesServers (sync : SyncState) (source : Bool) :
    LeavesServers surroundings app (app.startEnumeration surroundings sync source) := by
  unfold App.startEnumeration
  cases h : enumerateTask surroundings app (syncEndpointParams sync source) source with
  | error error => exact .quiet rfl rfl
  | ok task => exact ⟨rfl, rfl, by simpa using enumerateTask_addressed h⟩

theorem dispatched_leavesServers (result : SyncState × List PendingSyncTask) :
    LeavesServers surroundings app (app.dispatched surroundings result) := by
  have hscreen : LeavesServers surroundings { app with sync := some result.1 }
      (app.dispatched surroundings result) := by
    refine ⟨rfl, rfl, fun task htask => ?_⟩
    obtain ⟨spec, -, rfl⟩ := List.mem_map.mp htask
    exact runSync_addressed spec
  exact hscreen.of_same rfl rfl

variable (platform : Platform) (surroundings : Surroundings) (app : App)

theorem handleStartSyncPlan_leavesServers :
    LeavesServers surroundings app (handleStartSyncPlan surroundings app) := by
  unfold handleStartSyncPlan
  cases app.sync with
  | none => exact .quiet rfl rfl
  | some sync =>
      simp only
      split
      next => exact .quiet rfl rfl
      next => exact startEnumeration_leavesServers _ true

theorem handleSyncSourceEnumerated_leavesServers (result : Except String (List SyncObject)) :
    LeavesServers surroundings app (handleSyncSourceEnumerated surroundings app result) := by
  unfold handleSyncSourceEnumerated
  cases app.sync with
  | none => exact .quiet rfl rfl
  | some sync =>
      cases result with
      | error error => exact .quiet rfl rfl
      | ok objects => exact startEnumeration_leavesServers _ false

theorem handleSyncDestinationEnumerated_leavesServers
    (result : Except String (List SyncObject)) :
    LeavesServers surroundings app (handleSyncDestinationEnumerated app result) := by
  unfold handleSyncDestinationEnumerated
  cases app.sync with
  | none => exact .quiet rfl rfl
  | some sync =>
      cases result with
      | error error => exact .quiet rfl rfl
      | ok objects =>
          simp only
          split
          next => exact .quiet rfl rfl
          next =>
            split
            next => exact .quiet rfl rfl
            next => exact ⟨rfl, rfl, by simpa using addresses_of_nil rfl⟩

theorem RunOutcome.leavesServers {result : App × List AppTask}
    (h : RunOutcome surroundings app result) : LeavesServers surroundings app result := by
  cases h with
  | unchanged => exact .quiet rfl rfl
  | noted _ _ _ => exact .quiet rfl rfl
  | dispatched _ _ _ _ => exact (dispatched_leavesServers _).of_same rfl rfl

end Sync

/-! ## Messages that change the servers -/

def Message.rewires : Message → Bool
  | .connectTo _ | .addConnection | .removeConnection _ | .serverAutoConnect _ _ => true
  | _ => false

/-- Every other message leaves the client and the connections alone. -/
theorem update_leavesServers (platform : Platform) (surroundings : Surroundings) (app : App)
    {message : Message} (h : message.rewires = false) :
    LeavesServers surroundings app (app.update platform surroundings message) := by
  cases message with
  | connectTo _ | addConnection | removeConnection _ | serverAutoConnect _ _ => cases h
  | syncSourceConnectionChanged _ | syncDestinationConnectionChanged _ =>
      refine ⟨rfl, rfl, fun task htask => ?_⟩
      obtain rfl := List.mem_singleton.mp htask
      exact addresses_of_nil rfl
  | pickSyncSourceLocalPath | pickSyncDestinationLocalPath =>
      refine ⟨rfl, rfl, fun task htask => ?_⟩
      obtain rfl := List.mem_singleton.mp htask
      exact addresses_of_nil rfl
  | startSyncPlan => exact handleStartSyncPlan_leavesServers surroundings app
  | syncSourceEnumerated result =>
      exact handleSyncSourceEnumerated_leavesServers surroundings app result
  | syncDestinationEnumerated result =>
      exact handleSyncDestinationEnumerated_leavesServers surroundings app result
  | startSyncCopy | startSync | cancelSyncDeleteConfirm | syncDeleteConfirmTextChanged _
  | confirmSyncDeleteRun | syncCopyStepFinished _ | syncDeleteBatchFinished _ =>
      exact (update_outcome platform surroundings app rfl rfl).leavesServers
  | editConnection name =>
      simp only [App.update, handleEditConnection]
      cases app.connections.find? (·.name = name) with
      | none => exact .quiet rfl rfl
      | some connection => exact .quiet rfl rfl
  | startServer =>
      simp only [App.update, handleStartServer]
      split
      next => exact .quiet rfl rfl
      next =>
        split
        next => exact .quiet rfl rfl
        next =>
          cases surroundings.spawnServer with
          | error error => exact .quiet rfl rfl
          | ok _ =>
              refine ⟨rfl, rfl, fun task htask => ?_⟩
              simp only at htask
              split at htask
              next =>
                obtain rfl := List.mem_singleton.mp htask
                exact addresses_of_nil rfl
              next => cases htask
  | openCopyObject | openMoveObject | openRenameObject | openImportFolder | openExportPrefix
  | closeTransferModal | transferDestinationConnectionChanged _
  | transferDestinationBucketChanged _ | transferDestinationKeyChanged _
  | transferDestinationBucketsLoaded _ | startTransfer | transferPrepared _
  | transferStepFinished _ | transferConflictOverwrite | transferConflictSkip
  | transferConflictOverwriteAll | transferConflictSkipAll | openBulkDeleteModal
  | closeBulkDeleteModal | confirmBulkDelete | bulkDeleteBatchFinished _
  | openPrefixDeleteModal _ | closePrefixDeleteModal | prefixDeleteListLoaded _
  | confirmPrefixDelete | prefixDeleteBatchFinished _ | openDeleteBucketModal
  | closeDeleteBucketModal | bucketDeletePreviewLoaded _ _ | bucketDeleteConfirmNameChanged _
  | confirmDeleteBucket | bucketDeleteStepFinished _ =>
      exact (update_beside platform surroundings app rfl).toLeavesServers
  | _ => exact .quiet rfl rfl

/-! ## What an id stands for -/

/-- The endpoint of the server an id stands for. -/
def App.serverOf (app : App) (connectionId : Str) : Option Str :=
  if connectionId = CURRENT_CONNECTION_ID then some app.client.endpoint
  else (app.connections.find? (·.name = connectionId)).map fun connection =>
    trimEndMatches '/' connection.endpoint

/-- The keychain answers for every connection. -/
def Surroundings.KeysReadable (surroundings : Surroundings) : Prop :=
  ∀ name, ∃ credentials, surroundings.resolveKeys name = .ok credentials

/-- Whoever asks for a client of the id gets one for this server, or none. -/
def App.Resolves (app : App) (connectionId endpoint : Str) : Prop :=
  ∀ surroundings client, app.makeClientForConnection surroundings connectionId = .ok client →
    client.endpoint = endpoint

/-- The server a message switches the client to. -/
def App.switchesTo (surroundings : Surroundings) (app : App) : Message → Option Str
  | .connectTo name =>
      match app.connections.find? (·.name = name) with
      | none => none
      | some connection =>
          match surroundings.resolveKeys connection.name with
          | .error _ => none
          | .ok _ => some (trimEndMatches '/' connection.endpoint)
  | .serverAutoConnect endpoint _ =>
      if app.serverRunning then some (trimEndMatches '/' endpoint) else none
  | _ => none

/-- The connection a message saves. -/
def App.saves (surroundings : Surroundings) (app : App) : Message → Option Connection
  | .addConnection =>
      match app.newConnection with
      | .error _ => none
      | .ok connection =>
          match if trim app.newConnAccessKey ≠ [] ∧ app.newConnSecretKey ≠ [] then
              surroundings.storeKeys else .ok () with
          | .error _ => none
          | .ok () => some connection
  | _ => none

/-- The message leaves the id at its server: for the current connection it switches to
no other server, for a saved one it saves no other endpoint under the id. -/
def App.KeepsServer (surroundings : Surroundings) (app : App) (connectionId endpoint : Str)
    (message : Message) : Prop :=
  if connectionId = CURRENT_CONNECTION_ID then
    ∀ switched, app.switchesTo surroundings message = some switched → switched = endpoint
  else
    ∀ connection, app.saves surroundings message = some connection →
      connection.name = connectionId → trimEndMatches '/' connection.endpoint = endpoint

section Resolves

variable {surroundings : Surroundings} {app : App} {connectionId endpoint : Str}

theorem serverOf_of_client {client : S3Client}
    (h : app.makeClientForConnection surroundings connectionId = .ok client) :
    app.serverOf connectionId = some client.endpoint := by
  unfold App.makeClientForConnection at h
  unfold App.serverOf
  by_cases hcurrent : connectionId = CURRENT_CONNECTION_ID
  · rw [if_pos hcurrent] at h ⊢
    rw [Except.ok.inj h]
  · rw [if_neg hcurrent] at h ⊢
    cases hfind : app.connections.find? (·.name = connectionId) with
    | none => simp [hfind] at h
    | some connection =>
        simp only [hfind] at h
        cases hkeys : surroundings.resolveKeys connection.name with
        | error error => simp [hkeys, bind, Except.bind] at h
        | ok credentials =>
            simp only [hkeys, bind, Except.bind, S3Client.new, Except.ok.injEq] at h
            rw [← h]
            rfl

theorem calm_keysReadable : calm.KeysReadable := fun _ => ⟨none, rfl⟩

theorem client_of_serverOf {server : Str} (hkeys : surroundings.KeysReadable)
    (h : app.serverOf connectionId = some server) :
    ∃ client, app.makeClientForConnection surroundings connectionId = .ok client ∧
      client.endpoint = server := by
  unfold App.serverOf at h
  unfold App.makeClientForConnection
  by_cases hcurrent : connectionId = CURRENT_CONNECTION_ID
  · rw [if_pos hcurrent] at h ⊢
    exact ⟨app.client, rfl, Option.some.inj h⟩
  · rw [if_neg hcurrent] at h ⊢
    obtain ⟨connection, hfind, rfl⟩ := Option.map_eq_some_iff.mp h
    obtain ⟨credentials, hcredentials⟩ := hkeys connection.name
    simp only [hfind, hcredentials]
    exact ⟨_, rfl, rfl⟩

theorem resolves_iff :
    app.Resolves connectionId endpoint ↔
      ∀ server, app.serverOf connectionId = some server → server = endpoint := by
  constructor
  · intro h server hserver
    obtain ⟨client, hclient, rfl⟩ := client_of_serverOf calm_keysReadable hserver
    exact h calm client hclient
  · intro h surroundings client hclient
    exact h client.endpoint (serverOf_of_client hclient)

/-- A client in hand settles where the id resolves to. -/
theorem resolves_of_client {client : S3Client}
    (h : app.makeClientForConnection surroundings connectionId = .ok client) :
    app.Resolves connectionId client.endpoint := by
  apply resolves_iff.mpr
  intro server hserver
  exact Option.some.inj (hserver.symm.trans (serverOf_of_client h))

theorem resolves_current_iff :
    app.Resolves CURRENT_CONNECTION_ID endpoint ↔ app.client.endpoint = endpoint := by
  simp [resolves_iff, App.serverOf]

theorem resolves_saved_iff (h : connectionId ≠ CURRENT_CONNECTION_ID) :
    app.Resolves connectionId endpoint ↔
      ∀ connection, app.connections.find? (·.name = connectionId) = some connection →
        trimEndMatches '/' connection.endpoint = endpoint := by
  simp only [resolves_iff, App.serverOf, if_neg h, Option.map_eq_some_iff]
  constructor
  · intro hserver connection hfind
    exact hserver _ ⟨connection, hfind, rfl⟩
  · rintro hserver server ⟨connection, hfind, rfl⟩
    exact hserver connection hfind

end Resolves

/-! ## One message -/

section Update

variable (platform : Platform) (surroundings : Surroundings) (app : App)

theorem not_rewires {message : Message} (h : message.rewires = false) :
    app.switchesTo surroundings message = none ∧ app.saves surroundings message = none := by
  cases message with
  | connectTo _ | addConnection | removeConnection _ | serverAutoConnect _ _ => cases h
  | _ => exact ⟨rfl, rfl⟩

theorem update_client (message : Message) :
    (app.update platform surroundings message).1.client.endpoint =
      (app.switchesTo surroundings message).getD app.client.endpoint := by
  cases hrewires : message.rewires with
  | false =>
      rw [(update_leavesServers platform surroundings app hrewires).client_eq,
        (not_rewires surroundings app hrewires).1]
      rfl
  | true =>
      cases message with
      | connectTo name =>
          simp only [App.update, handleConnectTo, App.switchesTo]
          cases app.connections.find? (·.name = name) with
          | none => rfl
          | some connection =>
              cases hkeys : surroundings.resolveKeys connection.name with
              | error error =>
                  simp only [hkeys]
                  rfl
              | ok credentials =>
                  simp only [hkeys]
                  rfl
      | addConnection =>
          simp only [App.update, handleAddConnection, App.switchesTo]
          cases app.newConnection with
          | error error => rfl
          | ok connection =>
              simp only
              split
              next => rfl
              next => rfl
      | removeConnection name => rfl
      | serverAutoConnect server noAuth =>
          simp only [App.update, handleServerAutoConnect, App.switchesTo]
          split
          next => rfl
          next => rfl
      | _ => cases hrewires

theorem handleAddConnection_connections {connection : Connection}
    (h : app.newConnection = .ok connection) :
    (handleAddConnection surroundings app).1.connections =
      (addConnection surroundings app.connections connection (trim app.newConnAccessKey)
        app.newConnSecretKey).1 := by
  unfold handleAddConnection
  simp only [h]
  split
  next => rfl
  next => rfl

/-- The saved connections change by a save, which keeps the other names, or by removals. -/
theorem update_connections (message : Message) :
    (∃ connection, app.saves surroundings message = some connection ∧
        (app.update platform surroundings message).1.connections =
          app.connections.filter (·.name ≠ connection.name) ++ [connection]) ∨
      app.saves surroundings message = none ∧
        ((app.update platform surroundings message).1.connections = app.connections ∨
          ∃ name, (app.update platform surroundings message).1.connections =
            app.connections.filter (·.name ≠ name)) := by
  cases hrewires : message.rewires with
  | false =>
      have hleaves := update_leavesServers platform surroundings app hrewires
      exact .inr ⟨(not_rewires surroundings app hrewires).2, .inl hleaves.connections_eq⟩
  | true =>
      cases message with
      | connectTo name =>
          refine .inr ⟨rfl, .inl ?_⟩
          simp only [App.update, handleConnectTo]
          cases app.connections.find? (·.name = name) with
          | none => rfl
          | some connection =>
              cases hkeys : surroundings.resolveKeys connection.name with
              | error error => simp only [hkeys]
              | ok credentials =>
                  simp only [hkeys]
                  rfl
      | addConnection =>
          cases hform : app.newConnection with
          | error error =>
              refine .inr ⟨by simp [App.saves, hform], .inl ?_⟩
              simp [App.update, handleAddConnection, hform]
          | ok connection =>
              simp only [App.update, handleAddConnection_connections surroundings app hform,
                App.saves, hform, addConnection]
              generalize (if trim app.newConnAccessKey ≠ [] ∧ app.newConnSecretKey ≠ [] then
                surroundings.storeKeys else .ok ()) = stored
              cases stored with
              | error error => exact .inr ⟨rfl, .inl rfl⟩
              | ok _ => exact .inl ⟨connection, rfl, rfl⟩
      | removeConnection name => exact .inr ⟨rfl, .inr ⟨name, rfl⟩⟩
      | serverAutoConnect server noAuth =>
          refine .inr ⟨rfl, .inl ?_⟩
          simp only [App.update, handleServerAutoConnect]
          split
          next => rfl
          next => rfl
      | _ => cases hrewires

theorem find?_filter_name_of_ne (connections : List Connection) {name connectionId : Str}
    (h : name ≠ connectionId) :
    (connections.filter (·.name ≠ name)).find? (·.name = connectionId) =
      connections.find? (·.name = connectionId) := by
  rw [List.find?_filter]
  congr 1
  funext connection
  by_cases heq : connection.name = connectionId
  · simp [heq, Ne.symm h]
  · simp [heq]

theorem find?_filter_name_self (connections : List Connection) (connectionId : Str) :
    (connections.filter (·.name ≠ connectionId)).find? (·.name = connectionId) = none := by
  simp [List.find?_eq_none]

variable {app} {connectionId endpoint : Str}

/-- An id that resolves to the server still does after exactly the messages that keep it. -/
theorem update_resolves_iff (h : app.Resolves connectionId endpoint) (message : Message) :
    (app.update platform surroundings message).1.Resolves connectionId endpoint ↔
      app.KeepsServer surroundings connectionId endpoint message := by
  unfold App.KeepsServer
  by_cases hcurrent : connectionId = CURRENT_CONNECTION_ID
  · rw [if_pos hcurrent]
    rw [hcurrent, resolves_current_iff] at h ⊢
    rw [update_client]
    cases app.switchesTo surroundings message with
    | none => simpa using h
    | some switched => simp
  · rw [if_neg hcurrent]
    rw [resolves_saved_iff hcurrent] at h ⊢
    rcases update_connections platform surroundings app message with
      ⟨saved, hsaves, hconnections⟩ | ⟨hsaves, hconnections | ⟨name, hconnections⟩⟩
    · rw [hsaves, hconnections, List.find?_append]
      by_cases hname : saved.name = connectionId
      · rw [hname, find?_filter_name_self]
        simp [hname]
      · rw [find?_filter_name_of_ne _ hname]
        simpa [hname] using h
    · rw [hsaves, hconnections]
      simpa using h
    · rw [hsaves, hconnections]
      by_cases hname : name = connectionId
      · rw [hname, find?_filter_name_self]
        simp
      · rw [find?_filter_name_of_ne _ hname]
        simpa using h

/-- The tasks of a message ask the servers that their ids stand for. -/
theorem update_addresses (message : Message) :
    ∀ task ∈ (app.update platform surroundings message).2, app.Addresses surroundings task := by
  cases hrewires : message.rewires with
  | false => exact (update_leavesServers platform surroundings app hrewires).addresses
  | true =>
      -- Listing the buckets after a switch is no request of planned work.
      intro task htask
      apply addresses_of_nil
      cases message with
      | connectTo name =>
          simp only [App.update, handleConnectTo] at htask
          cases hfind : app.connections.find? (·.name = name) with
          | none => simp [hfind] at htask
          | some connection =>
              cases hkeys : surroundings.resolveKeys connection.name with
              | error error => simp [hfind, hkeys] at htask
              | ok credentials =>
                  simp only [hfind, hkeys, S3Client.new, App.fetchBuckets,
                    List.mem_singleton] at htask
                  rw [htask]
                  rfl
      | addConnection =>
          simp only [App.update, handleAddConnection] at htask
          cases hform : app.newConnection with
          | error error => simp [hform] at htask
          | ok connection =>
              simp only [hform] at htask
              split at htask
              next => cases htask
              next => cases htask
      | removeConnection name => cases htask
      | serverAutoConnect server noAuth =>
          simp only [App.update, handleServerAutoConnect] at htask
          split at htask
          next =>
            simp only [S3Client.new, App.fetchBuckets, List.mem_singleton] at htask
            rw [htask]
            rfl
          next => cases htask
      | _ => cases hrewires

end Update

/-! ## Runs -/

/-- The listings and steps an event asks for. -/
def World.issued (platform : Platform) (world : World) (event : WorldEvent) :
    List (Str × Str) :=
  (world.handle platform event).2.flatMap (·.requests)

/-- The event leaves the id at its server. -/
def World.KeepsServer (connectionId endpoint : Str) (world : World) (event : WorldEvent) :
    Prop :=
  ∀ surroundings message, world.received event = some (surroundings, message) →
    world.app.KeepsServer surroundings connectionId endpoint message

section Runs

variable {platform : Platform} {world : World} {connectionId endpoint : Str}

theorem resolves_congr {app app' : App} (hclient : app'.client = app.client)
    (hconnections : app'.connections = app.connections) :
    app'.Resolves connectionId endpoint ↔ app.Resolves connectionId endpoint := by
  simp only [resolves_iff, App.serverOf, hclient, hconnections]

theorem step_resolves_iff (platform : Platform)
    (h : world.app.Resolves connectionId endpoint) (event : WorldEvent) :
    (world.step platform event).app.Resolves connectionId endpoint ↔
      world.KeepsServer connectionId endpoint event := by
  rw [step_app]
  cases hreceived : world.received event with
  | none =>
      have hkeeps : world.KeepsServer connectionId endpoint event := by
        intro surroundings message hsome
        cases hreceived.symm.trans hsome
      rcases handle_of_not_received platform hreceived with heq | ⟨browsing, -, heq⟩
      · rw [heq]
        exact iff_of_true h hkeeps
      · rw [heq]
        have hbeside := browse_beside calm world.app browsing
        exact iff_of_true ((resolves_congr hbeside.client_eq hbeside.connections_eq).mpr h) hkeeps
  | some received =>
      obtain ⟨surroundings, message⟩ := received
      rw [handle_of_received platform hreceived, update_resolves_iff platform surroundings h]
      constructor
      · intro hkeeps surroundings' message' hsome
        cases hreceived.symm.trans hsome
        exact hkeeps
      · intro hkeeps
        exact hkeeps surroundings message hreceived

/-- A request goes to the server that its id resolves to. -/
theorem issued_of_resolves (h : world.app.Resolves connectionId endpoint) {event : WorldEvent}
    {request : Str × Str} (hrequest : request ∈ world.issued platform event)
    (hid : request.1 = connectionId) : request.2 = endpoint := by
  obtain ⟨task, htask, hmem⟩ := List.mem_flatMap.mp hrequest
  have haddressed : ∃ surroundings, world.app.Addresses surroundings task := by
    cases hreceived : world.received event with
    | none =>
        rcases handle_of_not_received platform hreceived with heq | ⟨browsing, -, heq⟩
        · rw [heq] at htask
          cases htask
        · rw [heq] at htask
          exact ⟨calm, (browse_beside calm world.app browsing).addresses task htask⟩
    | some received =>
        obtain ⟨surroundings, message⟩ := received
        rw [handle_of_received platform hreceived] at htask
        exact ⟨surroundings,
          update_addresses platform surroundings message task htask⟩
  obtain ⟨surroundings, haddresses⟩ := haddressed
  obtain ⟨client, hclient, hserver⟩ := haddresses request hmem
  rw [hid] at hclient
  rw [← hserver]
  exact h surroundings client hclient

end Runs

/-- While a plan is made and run, a connection id resolves to its server in every state,
and every listing and step under the id goes there, exactly when every event leaves the
id at its server. The steps of a sync run use the two ids that the screen names. -/
theorem run_keeps_servers (platform : Platform) {world : World}
    (hreachable : world.Reachable platform) {surroundings : Surroundings} {connectionId : Str}
    {client : S3Client}
    (hclient : world.app.makeClientForConnection surroundings connectionId = .ok client)
    (events : List WorldEvent) :
    (Along (World.step platform) (World.KeepsServer connectionId client.endpoint) world events ↔
      ∀ t ∈ transitions (World.step platform) world events,
        t.after.app.Resolves connectionId client.endpoint ∧
        ∀ request ∈ t.before.issued platform t.event,
          request.1 = connectionId → request.2 = client.endpoint) ∧
    ∀ t ∈ transitions (World.step platform) world events, ∀ spec clients,
      AppTask.runSync spec clients ∈ (t.before.handle platform t.event).2 →
      ∃ sync, t.after.app.sync = some sync ∧
        ∀ request ∈ (AppTask.runSync spec clients).requests,
          request.1 = sync.sourceConnectionId ∨ request.1 = sync.destinationConnectionId := by
  have hresolves := resolves_of_client hclient
  have hexact := along_iff_forall_transitions
    (fun world : World => world.app.Resolves connectionId client.endpoint)
    (fun _ event h => step_resolves_iff platform h event) hresolves events
  refine ⟨⟨fun hkeeps t ht => ⟨hexact.mp hkeeps t ht, ?_⟩, fun h => ?_⟩, fun t ht => ?_⟩
  · obtain ⟨hbefore, -, -⟩ := transitions_invariant
      (fun world : World => world.app.Resolves connectionId client.endpoint)
      (fun _ event h => (step_resolves_iff platform h event).mpr) hresolves hkeeps ht
    intro request hrequest hid
    exact issued_of_resolves hbefore hrequest hid
  · exact hexact.mpr fun t ht => (h t ht).1
  · obtain ⟨haligned, -, hafter⟩ := transitions_invariant World.Aligned
      (fun _ event h _ => h.step event) hreachable.aligned (along_true world events) ht
    intro spec clients hspec
    rw [hafter]
    exact haligned.steps hspec

/-! ## A bulk delete on another server -/

/-- The server launcher with one volume. -/
def oneVolume : ServerConfig := { noServer with volumes := ["/data".toList] }

/-- The application on server `a`, and a local server that was just started. -/
def launching : World :=
  run (World.step .unix) (World.start [] oneVolume ⟨some "http://a".toList, none⟩)
    [.user calm .startServer]

/-- A look at bucket `x` with the key `k` selected. -/
def keySelected : Browsing where
  selection := .bucket "x".toList
  selectedBucket := some "x".toList
  currentPrefix := []
  selectedKeys := ["k".toList]
  buckets := none
  loadingBuckets := false
  loadingObjects := false
  serverConfig := oneVolume
  error := none

/-- List the bucket, open the dialog for the selected key and confirm it. -/
def bulkDelete (meanwhile : List WorldEvent) : List WorldEvent :=
  [.browse keySelected, .user calm .openBulkDeleteModal] ++ meanwhile ++
    [.user calm .confirmBulkDelete]

theorem launching_reachable : launching.Reachable .unix :=
  ⟨[], oneVolume, ⟨some "http://a".toList, none⟩, [.user calm .startServer], rfl⟩

theorem run_keeps_servers_undisturbed :
    Along (World.step .unix)
        (World.KeepsServer CURRENT_CONNECTION_ID launching.app.client.endpoint) launching
        (bulkDelete []) ∧
      ∀ t ∈ transitions (World.step .unix) launching (bulkDelete []),
        t.after.app.Resolves CURRENT_CONNECTION_ID launching.app.client.endpoint ∧
        ∀ request ∈ t.before.issued .unix t.event,
          request.1 = CURRENT_CONNECTION_ID → request.2 = launching.app.client.endpoint := by
  have hclient := makeClientForConnection_current calm launching.app
  have hkeeps : Along (World.step .unix)
      (World.KeepsServer CURRENT_CONNECTION_ID launching.app.client.endpoint) launching
      (bulkDelete []) := by
    refine ⟨fun _ _ h => ?_, fun _ _ h => ?_, fun _ _ h => ?_, trivial⟩
    · cases h
    · cases h
      simp [App.KeepsServer, App.switchesTo]
    · cases h
      simp [App.KeepsServer, App.switchesTo]
  exact ⟨hkeeps,
    (run_keeps_servers .unix launching_reachable hclient (bulkDelete [])).1.mp hkeeps⟩

/-- The local server connects while the dialog is open: the key listed on server `a` is
deleted on the local server. -/
theorem bulk_delete_redirected :
    ¬ ∀ t ∈ transitions (World.step .unix) launching
        (bulkDelete [.deliver calm 1 emptyReplies]),
      ∀ request ∈ t.before.issued .unix t.event,
        request.1 = CURRENT_CONNECTION_ID → request.2 = launching.app.client.endpoint := by
  decide

end AbixioUi
