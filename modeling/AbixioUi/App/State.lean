import AbixioUi.Sync.Execution
import AbixioUi.Sync.RunPlan

/-! # Application state

The fields of the application that the sync screen, the transfer and delete
modals, the connections and the server launcher read or write, the tasks their
handlers start, and what the surroundings answer while a message is handled.
-/

namespace AbixioUi

open Foundation

/-! ## Connections and clients -/

structure Connection where
  name : Str
  endpoint : Str
  region : Str
deriving DecidableEq, Repr

/-- A client talks to one endpoint. -/
structure S3Client where
  endpoint : Str
  credentials : Option (Str × Str)
  region : Str
deriving DecidableEq, Repr

def S3Client.new (endpoint : Str) (credentials : Option (Str × Str)) (region : Str) :
    Except String S3Client :=
  .ok { endpoint := trimEndMatches '/' endpoint, credentials := credentials, region := region }

def S3Client.anonymous (endpoint : Str) : Except String S3Client :=
  S3Client.new endpoint none "us-east-1".toList

structure ServerConfig where
  volumes : List Str
  listen : Str
  noAuth : Bool
  autoConnect : Bool
deriving DecidableEq, Repr

/-! ## Transfers and deletes -/

structure TransferState where
  mode : TransferMode
  destinationConnectionId : Str
  destinationBucket : Str
  destinationKey : Str
  destinationBuckets : Option (Except String (List Str))
  loadingDestinationBuckets : Bool
  localPath : Option PathBuf
  sourceBucket : Option Str
  sourceKey : Option Str
  sourcePrefix : Option Str
  items : List TransferItem
  nextIndex : Nat
  completed : Nat
  skipped : Nat
  failed : Nat
  currentItem : Option String
  pendingConflict : Option TransferItem
  overwritePolicy : OverwritePolicy
  preparing : Bool
  running : Bool
  summary : Option String

structure BulkDeleteState where
  bucket : Str
  keys : List Str
  total : Nat
  deleted : Nat
  nextIndex : Nat
  deleting : Bool
  summary : Option String
deriving DecidableEq, Repr

structure PrefixDeleteState where
  bucket : Str
  keyPrefix : Str
  keys : List Str
  loading : Bool
  total : Nat
  deleted : Nat
  nextIndex : Nat
  deleting : Bool
  summary : Option String
deriving DecidableEq, Repr

structure BucketDeleteState where
  bucket : Str
  confirmName : Str
  previewLoading : Bool
  objectKeys : List Str
  totalObjects : Nat
  deletedObjects : Nat
  nextIndex : Nat
  deleting : Bool
  summary : Option String
deriving DecidableEq, Repr

inductive Selection
  | none
  | bucket (name : Str)
  | object (bucket key : Str)
deriving DecidableEq, Repr

/-! ## The application -/

structure App where
  client : S3Client
  endpoint : Str
  activeConnection : Option Str
  connections : List Connection
  editingConnection : Option Str
  newConnName : Str
  newConnEndpoint : Str
  newConnRegion : Str
  newConnAccessKey : Str
  newConnSecretKey : Str
  selection : Selection
  selectedBucket : Option Str
  currentPrefix : Str
  selectedKeys : List Str
  buckets : Option (Except String (List Str))
  loadingBuckets : Bool
  loadingObjects : Bool
  transfer : Option TransferState
  bulkDelete : Option BulkDeleteState
  prefixDelete : Option PrefixDeleteState
  bucketDelete : Option BucketDeleteState
  sync : Option SyncState
  serverConfig : ServerConfig
  serverRunning : Bool
  error : Option String

/-- What the keychain, the settings file, the folder dialog and the process table
answer while one message is handled. -/
structure Surroundings where
  resolveKeys : Str → Except String (Option (Str × Str))
  storeKeys : Except String Unit
  saveSettings : Except String Unit
  pickFolder : Option PathBuf
  spawnServer : Except String Unit

/-! ## Tasks -/

/-- What a started task captured; its result comes back as a message. -/
inductive AppTask
  | fetchBuckets (client : S3Client)
  | fetchObjects (client : S3Client) (bucket keyPrefix : Str)
  | fetchSyncSourceBuckets (client : Except String S3Client)
  | fetchSyncDestinationBuckets (client : Except String S3Client)
  | pickSyncSourceLocalPath (path : Option PathBuf)
  | pickSyncDestinationLocalPath (path : Option PathBuf)
  | enumerateSyncSource (params : EndpointParams) (client : Option S3Client)
  | enumerateSyncDestination (params : EndpointParams) (client : Option S3Client)
  | buildSyncPlan (source destination : List SyncObject) (mode : SyncMode)
      (policy : SyncPolicy) (compareMode : SyncCompareMode)
  | runSync (spec : PendingSyncTask)
      (clients : Except String (Option S3Client × Option S3Client))
  | fetchTransferBuckets (client : Except String S3Client)
  | prepareTransfer (items : List TransferItem)
  | prepareImport (root : PathBuf) (bucket keyPrefix : Str)
  | prepareExport (client : S3Client) (bucket keyPrefix : Str) (root : PathBuf)
  | runTransfer (sourceClient : S3Client) (destinationClient : Option S3Client)
      (item : TransferItem) (overwritePolicy : OverwritePolicy) (isMove : Bool)
  | refuseTransfer (error : String)
  | deleteBulk (client : S3Client) (bucket : Str) (keys : List Str)
  | listPrefix (client : S3Client) (bucket keyPrefix : Str)
  | deletePrefix (client : S3Client) (bucket : Str) (keys : List Str)
  | previewBucket (client : S3Client) (bucket : Str)
  | deleteBucketObject (client : S3Client) (bucket key : Str)
  | deleteBucket (client : S3Client) (bucket : Str)
  | autoConnect (endpoint : Str) (noAuth : Bool)

/-! ## Starting -/

structure StartupOptions where
  endpoint : Option Str
  creds : Option (Str × Str)

/-- The client that stands in until a connection is chosen. -/
def fallbackClient : S3Client where
  endpoint := "http://localhost:10000".toList
  credentials := none
  region := "us-east-1".toList

/-- The first client, its endpoint, and whether the buckets are listed at once. -/
def StartupOptions.connect (startup : StartupOptions) : S3Client × Str × Bool :=
  match startup.endpoint with
  | none => (fallbackClient, [], false)
  | some endpoint =>
      let client := match startup.creds with
        | some creds => S3Client.new endpoint (some creds) "us-east-1".toList
        | none => S3Client.anonymous endpoint
      match client with
      | .ok client => (client, endpoint, true)
      | .error _ => (fallbackClient, [], false)

/-- The application at startup, with the saved connections and server settings. -/
def App.new (connections : List Connection) (serverConfig : ServerConfig)
    (startup : StartupOptions) : App × List AppTask :=
  let (client, endpoint, loadingBuckets) := startup.connect
  ({ client := client
     endpoint := endpoint
     activeConnection := none
     connections := connections
     editingConnection := none
     newConnName := []
     newConnEndpoint := []
     newConnRegion := "us-east-1".toList
     newConnAccessKey := []
     newConnSecretKey := []
     selection := .none
     selectedBucket := none
     currentPrefix := []
     selectedKeys := []
     buckets := none
     loadingBuckets := loadingBuckets
     loadingObjects := false
     transfer := none
     bulkDelete := none
     prefixDelete := none
     bucketDelete := none
     sync := none
     serverConfig := serverConfig
     serverRunning := false
     error := none }, if loadingBuckets then [.fetchBuckets client] else [])

/-! ## Choosing a client -/

def App.makeClientForConnection (surroundings : Surroundings) (app : App) (connectionId : Str) :
    Except String S3Client :=
  if connectionId = CURRENT_CONNECTION_ID then .ok app.client
  else
    match app.connections.find? (·.name = connectionId) with
    | none => .error ("connection '" ++ String.ofList connectionId ++ "' not found")
    | some connection => do
        let credentials ← surroundings.resolveKeys connection.name
        S3Client.new connection.endpoint credentials connection.region

/-- The client an endpoint asks for; local endpoints ask for none. -/
def App.endpointClient (surroundings : Surroundings) (app : App) :
    TransferEndpoint → Except String (Option S3Client)
  | .s3 connectionId _ _ => (app.makeClientForConnection surroundings connectionId).map some
  | .local _ => .ok none

def App.currentConnectionId (app : App) : Str :=
  app.activeConnection.getD CURRENT_CONNECTION_ID

def App.currentSelectedObject (app : App) : Option (Str × Str) :=
  match app.selection with
  | .object bucket key => some (bucket, key)
  | _ => none

def App.currentSelectedBucket (app : App) : Option Str :=
  match app.selection with
  | .bucket name => some name
  | .object bucket _ => some bucket
  | .none => app.selectedBucket

def App.fetchBuckets (app : App) : List AppTask := [.fetchBuckets app.client]

def App.fetchObjects (app : App) : List AppTask :=
  match app.selectedBucket with
  | none => []
  | some bucket => [.fetchObjects app.client bucket app.currentPrefix]

end AbixioUi
