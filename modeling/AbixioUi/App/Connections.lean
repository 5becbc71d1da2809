import AbixioUi.App.State

/-! # Connections and the server launcher

Connecting replaces the client of the application; saved connections are edited
through a form. Work that is planned or running keeps its connection ids and asks
for a client again at every step.
-/

namespace AbixioUi

open Foundation

/-! ## Saved connections -/

def isValidName (name : Str) : Bool :=
  match name with
  | [] => false
  | first :: _ => first.isAlpha && name.all fun c => c.isAlphanum || c == '_' || c == '-'

def isValidEndpoint (url : Str) : Bool :=
  "http://".toList.isPrefixOf url || "https://".toList.isPrefixOf url

/-- The length of a text in bytes. -/
def byteLength (text : Str) : Nat := (text.map Char.utf8Size).sum

def isValidAccessKey (key : Str) : Bool := key = [] || decide (3 ≤ byteLength key)

def isValidSecretKey (key : Str) : Bool := key = [] || decide (8 ≤ byteLength key)

/-- The list keeps one connection for a name; it is changed even when saving fails. -/
def addConnection (surroundings : Surroundings) (connections : List Connection)
    (connection : Connection) (accessKey secretKey : Str) :
    List Connection × Except String Unit :=
  match if accessKey ≠ [] ∧ secretKey ≠ [] then surroundings.storeKeys else .ok () with
  | .error error => (connections, .error error)
  | .ok () =>
      (connections.filter (·.name ≠ connection.name) ++ [connection], surroundings.saveSettings)

def removeConnection (surroundings : Surroundings) (connections : List Connection) (name : Str) :
    List Connection × Except String Unit :=
  (connections.filter (·.name ≠ name), surroundings.saveSettings)

/-- What the connection form asks to save, or why it is refused. -/
def App.newConnection (app : App) : Except String Connection :=
  let name := trim app.newConnName
  let endpoint := trim app.newConnEndpoint
  let region := trim app.newConnRegion
  let accessKey := trim app.newConnAccessKey
  let secretKey := app.newConnSecretKey
  if name = [] ∨ endpoint = [] then .error "name and endpoint are required"
  else if ¬ isValidName name then
    .error "name must start with a letter, only alphanumeric/dash/underscore"
  else if ¬ isValidEndpoint endpoint then .error "endpoint must start with http:// or https://"
  else if decide (accessKey = []) ≠ decide (secretKey = []) then
    .error "provide both access key and secret key, or neither"
  else if ¬ isValidAccessKey accessKey then .error "access key must be at least 3 characters"
  else if ¬ isValidSecretKey secretKey then .error "secret key must be at least 8 characters"
  else .ok
    { name := name
      endpoint := endpoint
      region := if region = [] then "us-east-1".toList else region }

/-! ## Handlers -/

/-- The application right after it got a new client. -/
def App.connected (app : App) (client : S3Client) (endpoint name : Str) : App :=
  { app with
    client := client
    endpoint := endpoint
    activeConnection := some name
    selection := .none
    buckets := none
    selectedBucket := none
    currentPrefix := []
    selectedKeys := []
    loadingBuckets := true }

def handleConnectTo (surroundings : Surroundings) (app : App) (name : Str) :
    App × List AppTask :=
  match app.connections.find? (·.name = name) with
  | none => ({ app with error := some ("connection '" ++ String.ofList name ++ "' not found") }, [])
  | some connection =>
      match surroundings.resolveKeys connection.name with
      | .error e => ({ app with error := some ("keychain error: " ++ e) }, [])
      | .ok credentials =>
          match S3Client.new connection.endpoint credentials connection.region with
          | .error e => ({ app with error := some ("connect failed: " ++ e) }, [])
          | .ok client =>
              let app := app.connected client connection.endpoint name
              (app, app.fetchBuckets)

def handleAddConnection (surroundings : Surroundings) (app : App) : App × List AppTask :=
  match app.newConnection with
  | .error error => ({ app with error := some error }, [])
  | .ok connection =>
      let (connections, result) := addConnection surroundings app.connections connection
        (trim app.newConnAccessKey) app.newConnSecretKey
      match result with
      | .error e =>
          ({ app with connections := connections, error := some ("save failed: " ++ e) }, [])
      | .ok () =>
          ({ app with
             connections := connections
             newConnName := []
             newConnEndpoint := []
             newConnRegion := "us-east-1".toList
             newConnAccessKey := []
             newConnSecretKey := []
             editingConnection := none }, [])

def handleEditConnection (app : App) (name : Str) : App × List AppTask :=
  match app.connections.find? (·.name = name) with
  | none => (app, [])
  | some connection =>
      ({ app with
         newConnName := connection.name
         newConnEndpoint := connection.endpoint
         newConnRegion := connection.region
         newConnAccessKey := []
         newConnSecretKey := []
         editingConnection := some name }, [])

def handleRemoveConnection (surroundings : Surroundings) (app : App) (name : Str) :
    App × List AppTask :=
  let (connections, result) := removeConnection surroundings app.connections name
  ({ app with
     connections := connections
     error := match result with
       | .error e => some ("remove failed: " ++ e)
       | .ok () => app.error
     activeConnection :=
       if app.activeConnection = some name then none else app.activeConnection }, [])

def handleNewConnNameChanged (app : App) (value : Str) : App × List AppTask :=
  ({ app with newConnName := value }, [])

def handleNewConnEndpointChanged (app : App) (value : Str) : App × List AppTask :=
  ({ app with newConnEndpoint := value }, [])

def handleNewConnRegionChanged (app : App) (value : Str) : App × List AppTask :=
  ({ app with newConnRegion := value }, [])

def handleNewConnAccessKeyChanged (app : App) (value : Str) : App × List AppTask :=
  ({ app with newConnAccessKey := value }, [])

def handleNewConnSecretKeyChanged (app : App) (value : Str) : App × List AppTask :=
  ({ app with newConnSecretKey := value }, [])

/-! ## Server launcher -/

/-- Where a client reaches a server that listens on this address. -/
def listenToEndpoint (listen : Str) : Str :=
  let anyAddress := "0.0.0.0".toList
  let address :=
    if [':'].isPrefixOf listen then "127.0.0.1".toList ++ listen
    else if anyAddress.isPrefixOf listen then
      "127.0.0.1".toList ++ listen.drop anyAddress.length
    else listen
  "http://".toList ++ address

def handleStartServer (surroundings : Surroundings) (app : App) : App × List AppTask :=
  if app.serverRunning then (app, [])
  else if app.serverConfig.volumes.all fun volume => trim volume = [] then
    ({ app with error := some "add at least one volume path before starting" }, [])
  else
    match surroundings.spawnServer with
    | .error e => ({ app with error := some e }, [])
    | .ok () =>
        ({ app with serverRunning := true },
          if app.serverConfig.autoConnect then
            [.autoConnect (listenToEndpoint app.serverConfig.listen) app.serverConfig.noAuth]
          else [])

def handleStopServer (app : App) : App × List AppTask :=
  ({ app with serverRunning := false }, [])

def handleServerExited (app : App) : App × List AppTask :=
  ({ app with serverRunning := false }, [])

/-- Both authentication settings connect without credentials. -/
def handleServerAutoConnect (app : App) (endpoint : Str) (_noAuth : Bool) :
    App × List AppTask :=
  if app.serverRunning then
    match S3Client.new endpoint none "us-east-1".toList with
    | .error _ => (app, [])
    | .ok client =>
        let app := app.connected client endpoint "(server)".toList
        (app, app.fetchBuckets)
  else (app, [])

end AbixioUi
