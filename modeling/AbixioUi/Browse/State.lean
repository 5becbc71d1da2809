import AbixioUi.App.Update
import AbixioUi.Glob
import AbixioUi.S3.LifecycleXml
import Mathlib.Data.List.AList

/-! # The object browser

The listing, the panel of the selected object, the documents and the tags of the
selected bucket, and the tasks their handlers start. A stored result is traced to
the request it answers, so that what is shown can be compared with what is selected.
-/

namespace AbixioUi

open Foundation

/-- A value with the request it came from. The program does not have the request: no
handler reads it. -/
structure Traced (ρ α : Type) where
  value : α
  asked : ρ
deriving DecidableEq, Repr

/-! ## Results -/

structure ListingRequest where
  bucket : Str
  keyPrefix : Str
deriving DecidableEq, Repr

/-- The objects of a listing by their keys. -/
structure ListObjectsResult where
  objects : List Str
  commonPrefixes : List Str
  isTruncated : Bool
deriving DecidableEq, Repr

/-- The bucket and the key of an object. -/
abbrev ObjectId := Str × Str

structure ObjectDetail where
  key : Str
  size : Nat
  contentType : Str
  lastModified : Str
  etag : Str
  headers : List (Str × Str)
deriving DecidableEq, Repr

structure VersionInfo where
  key : Str
  versionId : Str
  isLatest : Bool
  isDeleteMarker : Bool
  size : Nat
  lastModified : Str
  etag : Str
deriving DecidableEq, Repr

structure ObjectInspectResponse where
  bucket : Str
  key : Str
  size : Nat
  etag : Str
  contentType : Str
  createdAt : Nat
deriving DecidableEq, Repr

structure HealResponse where
  result : String
  shardsFixed : Option Nat
deriving DecidableEq, Repr

/-- A map from tag keys to tag values. -/
abbrev Tags := AList fun _ : Str => Str

/-- What carries tags. -/
inductive TagTarget
  | object (object : ObjectId)
  | bucket (name : Str)
deriving DecidableEq, Repr

/-- Which tags were read: where, of what, and after how many writes to them. -/
structure TagRead where
  endpoint : Str
  target : TagTarget
  writes : Nat
deriving DecidableEq, Repr

/-! ## Bucket documents -/

inductive BucketDocumentKind
  | policy
  | lifecycle
deriving DecidableEq, Repr

def BucketDocumentKind.saveErrorPrefix : BucketDocumentKind → String
  | .policy => "save policy failed"
  | .lifecycle => "save lifecycle failed"

def BucketDocumentKind.deleteErrorPrefix : BucketDocumentKind → String
  | .policy => "delete policy failed"
  | .lifecycle => "delete lifecycle failed"

def BucketDocumentKind.validationEmptyError : BucketDocumentKind → String
  | .policy => "Policy JSON cannot be empty."
  | .lifecycle => "Lifecycle XML cannot be empty."

inductive BucketDocumentLoadState
  | loaded (text : Str)
  | absent
  | error (error : String)
deriving DecidableEq, Repr

/-- A text that was made from the document of a bucket, or from no document. -/
abbrev DocumentText := Traced (Option Str) Str

structure BucketDocumentState where
  loaded : Option (Traced Str BucketDocumentLoadState)
  editor : DocumentText
  editing : Bool
  saving : Bool
  error : Option String
deriving DecidableEq, Repr

namespace BucketDocumentState

def new : BucketDocumentState where
  loaded := none
  editor := ⟨[], none⟩
  editing := false
  saving := false
  error := none

def resetEditor (state : BucketDocumentState) (text : DocumentText) : BucketDocumentState :=
  { state with editor := text, editing := false, saving := false, error := none }

def reset (state : BucketDocumentState) : BucketDocumentState :=
  { state with loaded := none }.resetEditor ⟨[], none⟩

/-- The text of the loaded document. -/
def loadedText (state : BucketDocumentState) : DocumentText :=
  match state.loaded with
  | some ⟨.loaded text, bucket⟩ => ⟨text, some bucket⟩
  | _ => ⟨[], none⟩

def startEditing (state : BucketDocumentState) : BucketDocumentState :=
  { state with editing := true, saving := false, error := none, editor := state.loadedText }

def cancelEditing (state : BucketDocumentState) : BucketDocumentState :=
  state.resetEditor state.loadedText

/-- An open editor keeps its text. -/
def setLoaded (state : BucketDocumentState) (loaded : Traced Str BucketDocumentLoadState) :
    BucketDocumentState :=
  let state := { state with loaded := some loaded }
  { state with
    editor := if state.editing then state.editor else state.loadedText
    saving := false
    error := none }

end BucketDocumentState

/-! ## The browser -/

/-- The application with what its browser shows. -/
structure Browser where
  app : App
  hasAdmin : Bool
  isAbixio : Bool
  objects : Option (Traced ListingRequest (Except String ListObjectsResult))
  objectFilter : Str
  findResults : Option (Traced ListingRequest (Except String ListObjectsResult))
  finding : Bool
  detail : Option (Traced ObjectId (Except String ObjectDetail))
  loadingDetail : Bool
  objectInspect : Option (Traced ObjectId (Except String ObjectInspectResponse))
  loadingObjectInspect : Bool
  objectInspectTarget : Option ObjectId
  healConfirmTarget : Option ObjectId
  healingObject : Bool
  healingTarget : Option ObjectId
  healResult : Option String
  objectTags : Option (Traced TagRead (Except String Tags))
  loadingTags : Bool
  editingTagKey : Str
  editingTagValue : Str
  objectVersions : Option (Traced ObjectId (Except String (List VersionInfo)))
  loadingVersions : Bool
  objectPreview : Option (Traced ObjectId (Except String Str))
  bucketPolicy : BucketDocumentState
  bucketLifecycle : BucketDocumentState
  bucketTags : Option (Traced TagRead (Except String Tags))
  bucketTagKey : Str
  bucketTagValue : Str
  newBucketName : Str
  createBucketModalOpen : Bool
  createBucketModalError : Option String

/-! ## Tasks -/

/-- What a task of the browser captured. -/
inductive BrowserTask
  | app (task : AppTask)
  | probe
  | find (client : S3Client) (request : ListingRequest) (pattern : Str)
  | fetchDetail (client : S3Client) (object : ObjectId)
  | fetchObjectInspect (object : ObjectId)
  | healObject (object : ObjectId)
  | fetchTags (client : S3Client) (object : ObjectId)
  | putTags (client : S3Client) (object : ObjectId) (tags : Tags)
  | deleteTags (client : S3Client) (object : ObjectId)
  | fetchVersions (client : S3Client) (object : ObjectId)
  | deleteVersion (client : S3Client) (object : ObjectId) (versionId : Str)
  | restoreVersion (client : S3Client) (object : ObjectId) (versionId : Str)
  | fetchPreview (client : S3Client) (object : ObjectId)
  | uploadFile (client : S3Client) (object : ObjectId)
  | deleteObject (client : S3Client) (object : ObjectId)
  | createBucket (client : S3Client) (name : Str)
  | fetchBucketDocument (client : S3Client) (kind : BucketDocumentKind) (bucket : Str)
  | putBucketDocument (client : S3Client) (kind : BucketDocumentKind) (bucket : Str)
      (text : DocumentText)
  | deleteBucketDocument (client : S3Client) (kind : BucketDocumentKind) (bucket : Str)
  | fetchBucketTags (client : S3Client) (bucket : Str)
  | putBucketTags (client : S3Client) (bucket : Str) (tags : Tags)
  | deleteBucketTags (client : S3Client) (bucket : Str)

/-! ## Starting -/

/-- The browser at startup; an endpoint that was given is probed. -/
def Browser.new (connections : List Connection) (serverConfig : ServerConfig)
    (startup : StartupOptions) : Browser × List BrowserTask :=
  let (app, tasks) := App.new connections serverConfig startup
  ({ app := app
     hasAdmin := app.loadingBuckets
     isAbixio := false
     objects := none
     objectFilter := []
     findResults := none
     finding := false
     detail := none
     loadingDetail := false
     objectInspect := none
     loadingObjectInspect := false
     objectInspectTarget := none
     healConfirmTarget := none
     healingObject := false
     healingTarget := none
     healResult := none
     objectTags := none
     loadingTags := false
     editingTagKey := []
     editingTagValue := []
     objectVersions := none
     loadingVersions := false
     objectPreview := none
     bucketPolicy := .new
     bucketLifecycle := .new
     bucketTags := none
     bucketTagKey := []
     bucketTagValue := []
     newBucketName := []
     createBucketModalOpen := false
     createBucketModalError := none },
    tasks.map .app ++ if app.loadingBuckets then [.probe] else [])

/-! ## Shared parts of the handlers -/

namespace Browser

/-- The documents are looked up by their kind. -/
def bucketDocumentState (browser : Browser) : BucketDocumentKind → BucketDocumentState
  | .policy => browser.bucketPolicy
  | .lifecycle => browser.bucketLifecycle

def withBucketDocumentState (browser : Browser) (kind : BucketDocumentKind)
    (change : BucketDocumentState → BucketDocumentState) : Browser :=
  match kind with
  | .policy => { browser with bucketPolicy := change browser.bucketPolicy }
  | .lifecycle => { browser with bucketLifecycle := change browser.bucketLifecycle }

def resetBucketDocumentStates (browser : Browser) : Browser :=
  { browser with
    bucketPolicy := browser.bucketPolicy.reset
    bucketLifecycle := browser.bucketLifecycle.reset }

def clearObjectAdminState (browser : Browser) : Browser :=
  { browser with
    objectInspect := none
    loadingObjectInspect := false
    objectInspectTarget := none
    healConfirmTarget := none
    healingObject := false
    healingTarget := none
    healResult := none
    objectTags := none
    loadingTags := false
    editingTagKey := []
    editingTagValue := []
    objectVersions := none
    loadingVersions := false
    objectPreview := none }

def withError (browser : Browser) (error : String) : Browser :=
  { browser with app := { browser.app with error := some error } }

def loadObjects (browser : Browser) : Browser × List BrowserTask :=
  let app := { browser.app with loadingObjects := true }
  ({ browser with app := app }, app.fetchObjects.map .app)

def fetchBuckets (browser : Browser) : List BrowserTask := browser.app.fetchBuckets.map .app

/-- What the application did with a message that concerns nothing else. -/
def withApp (browser : Browser) (result : App × List AppTask) : Browser × List BrowserTask :=
  ({ browser with app := result.1 }, result.2.map .app)

end Browser

end AbixioUi
