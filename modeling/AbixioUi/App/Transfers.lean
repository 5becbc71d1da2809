import AbixioUi.App.State

/-! # Object transfers

Copies, moves, imports and exports of the transfer modal. Items are prepared once
and then taken one by one; the source client is the application's, the client of
an S3 destination is chosen by its connection id at every step.
-/

namespace AbixioUi

open Foundation

/-! ## Labels -/

def TransferEndpoint.label (platform : Platform) : TransferEndpoint → Str
  | .s3 _ bucket key => bucket ++ '/' :: key
  | .local path => path.display platform

def TransferItem.label (platform : Platform) (item : TransferItem) : String :=
  String.ofList (item.source.label platform ++ " -> ".toList ++ item.destination.label platform)

/-! ## Opening the modal -/

/-- A modal as it opens, before anything is prepared. -/
def TransferState.opened (mode : TransferMode) (destinationConnectionId destinationBucket
    destinationKey : Str) (destinationBuckets : Option (Except String (List Str))) :
    TransferState where
  mode := mode
  destinationConnectionId := destinationConnectionId
  destinationBucket := destinationBucket
  destinationKey := destinationKey
  destinationBuckets := destinationBuckets
  loadingDestinationBuckets := false
  localPath := none
  sourceBucket := none
  sourceKey := none
  sourcePrefix := none
  items := []
  nextIndex := 0
  completed := 0
  skipped := 0
  failed := 0
  currentItem := none
  pendingConflict := none
  overwritePolicy := .ask
  preparing := false
  running := false
  summary := none

def App.fetchTransferBuckets (surroundings : Surroundings) (app : App) (connectionId : Str) :
    List AppTask :=
  [.fetchTransferBuckets (app.makeClientForConnection surroundings connectionId)]

def handleOpenCopyObject (surroundings : Surroundings) (app : App) : App × List AppTask :=
  match app.currentSelectedObject with
  | none => (app, [])
  | some (bucket, key) =>
      let connectionId := app.currentConnectionId
      let current := decide (connectionId = CURRENT_CONNECTION_ID)
      let state :=
        { TransferState.opened .copyObject connectionId bucket key
            (if current then app.buckets else none) with
          loadingDestinationBuckets := !current
          sourceBucket := some bucket
          sourceKey := some key }
      let app := { app with transfer := some state }
      (app, if current then [] else app.fetchTransferBuckets surroundings connectionId)

/-- Moving and renaming open the same modal. -/
def openMoveModal (app : App) : App × List AppTask :=
  match app.currentSelectedObject with
  | none => (app, [])
  | some (bucket, key) =>
      ({ app with
         transfer := some
           { TransferState.opened .moveObject CURRENT_CONNECTION_ID bucket key app.buckets with
             sourceBucket := some bucket
             sourceKey := some key } }, [])

def handleOpenMoveObject (app : App) : App × List AppTask := openMoveModal app

def handleOpenRenameObject (app : App) : App × List AppTask := openMoveModal app

def handleOpenImportFolder (surroundings : Surroundings) (app : App) : App × List AppTask :=
  match app.selectedBucket, surroundings.pickFolder with
  | some bucket, some path =>
      ({ app with
         transfer := some
           { TransferState.opened .importFolder app.currentConnectionId bucket app.currentPrefix
               app.buckets with
             localPath := some path } }, [])
  | _, _ => (app, [])

def handleOpenExportPrefix (surroundings : Surroundings) (app : App) : App × List AppTask :=
  match app.selectedBucket, surroundings.pickFolder with
  | some bucket, some path =>
      ({ app with
         transfer := some
           { TransferState.opened .exportPrefix app.currentConnectionId bucket app.currentPrefix
               none with
             localPath := some path
             sourceBucket := some bucket
             sourcePrefix := some app.currentPrefix } }, [])
  | _, _ => (app, [])

def handleCloseTransferModal (app : App) : App × List AppTask :=
  match app.transfer with
  | none => (app, [])
  | some transfer =>
      if transfer.running then (app, []) else ({ app with transfer := none }, [])

/-! ## Editing the destination -/

def handleTransferDestinationConnectionChanged (surroundings : Surroundings) (app : App)
    (connectionId : Str) : App × List AppTask :=
  match app.transfer with
  | none => (app, [])
  | some transfer =>
      let app :=
        { app with
          transfer := some
            { transfer with
              destinationConnectionId := connectionId
              destinationBuckets := none
              loadingDestinationBuckets := true
              destinationBucket := []
              summary := none } }
      (app, app.fetchTransferBuckets surroundings connectionId)

def App.editTransfer (app : App) (edit : TransferState → TransferState) : App × List AppTask :=
  ({ app with transfer := app.transfer.map edit }, [])

def handleTransferDestinationBucketChanged (app : App) (bucket : Str) : App × List AppTask :=
  app.editTransfer fun transfer =>
    { transfer with destinationBucket := bucket, summary := none }

def handleTransferDestinationKeyChanged (app : App) (key : Str) : App × List AppTask :=
  app.editTransfer fun transfer => { transfer with destinationKey := key, summary := none }

def handleTransferDestinationBucketsLoaded (app : App) (result : Except String (List Str)) :
    App × List AppTask :=
  app.editTransfer fun transfer =>
    { transfer with loadingDestinationBuckets := false, destinationBuckets := some result }

/-! ## Running -/

def TransferState.pointsToSameObject (transfer : TransferState) : Bool :=
  match transfer.sourceBucket, transfer.sourceKey with
  | some bucket, some key =>
      decide (transfer.destinationConnectionId = CURRENT_CONNECTION_ID) &&
        decide (transfer.destinationBucket = bucket) && decide (transfer.destinationKey = key)
  | _, _ => false

def App.transferCanStart (app : App) : Bool :=
  match app.transfer with
  | none => false
  | some transfer =>
      if transfer.preparing || transfer.running || transfer.loadingDestinationBuckets then false
      else
        match transfer.mode with
        | .copyObject | .moveObject =>
            decide (transfer.destinationBucket ≠ []) && decide (transfer.destinationKey ≠ []) &&
              !transfer.pointsToSameObject
        | .importFolder | .exportPrefix => transfer.localPath.isSome

def TransferState.prepareTask (client : S3Client) (transfer : TransferState) : AppTask :=
  let emptyPath : PathBuf := { drive := none, rooted := false, components := [] }
  match transfer.mode with
  | .copyObject | .moveObject =>
      .prepareTransfer
        [{ source := .s3 CURRENT_CONNECTION_ID (transfer.sourceBucket.getD [])
             (transfer.sourceKey.getD [])
           destination := .s3 transfer.destinationConnectionId transfer.destinationBucket
             transfer.destinationKey }]
  | .importFolder =>
      .prepareImport (transfer.localPath.getD emptyPath) transfer.destinationBucket
        transfer.destinationKey
  | .exportPrefix =>
      .prepareExport client (transfer.sourceBucket.getD []) (transfer.sourcePrefix.getD [])
        (transfer.localPath.getD emptyPath)

def handleStartTransfer (app : App) : App × List AppTask :=
  if app.transferCanStart then
    match app.transfer with
    | none => (app, [])
    | some transfer =>
        let transfer := { transfer with preparing := true, summary := none }
        ({ app with transfer := some transfer }, [transfer.prepareTask app.client])
  else (app, [])

/-- The task of one item; without a destination client its failure is reported. -/
def App.transferStepTask (surroundings : Surroundings) (app : App) (item : TransferItem)
    (overwritePolicy : OverwritePolicy) (isMove : Bool) : AppTask :=
  match app.endpointClient surroundings item.destination with
  | .ok destinationClient =>
      .runTransfer app.client destinationClient item overwritePolicy isMove
  | .error error => .refuseTransfer error

def processNextTransferStep (platform : Platform) (surroundings : Surroundings) (app : App) :
    App × List AppTask :=
  match app.transfer with
  | none => (app, [])
  | some transfer =>
      match transfer.items[transfer.nextIndex]? with
      | none =>
          let finished :=
            { transfer with
              running := false
              pendingConflict := none
              currentItem := none
              summary := some ("Done. Copied: " ++ toString transfer.completed ++
                ". Skipped: " ++ toString transfer.skipped ++
                ". Failed: " ++ toString transfer.failed ++ ".") }
          let app := { app with transfer := some finished }
          if transfer.mode ≠ .exportPrefix ∧
              transfer.destinationConnectionId = CURRENT_CONNECTION_ID then
            ({ app with loadingObjects := true }, app.fetchObjects)
          else (app, [])
      | some item =>
          let transfer :=
            { transfer with
              running := true
              pendingConflict := none
              currentItem := some (item.label platform) }
          let app := { app with transfer := some transfer }
          (app, [app.transferStepTask surroundings item transfer.overwritePolicy
            (decide (transfer.mode = .moveObject))])

def handleTransferPrepared (platform : Platform) (surroundings : Surroundings) (app : App)
    (result : Except String (List TransferItem)) : App × List AppTask :=
  match app.transfer with
  | none => (app, [])
  | some transfer =>
      match result with
      | .ok items =>
          let prepared :=
            { transfer with
              preparing := false
              items := items
              nextIndex := 0
              completed := 0
              skipped := 0
              failed := 0
              running := true
              pendingConflict := none
              currentItem := none }
          if items = [] then
            ({ app with
               transfer := some
                 { prepared with running := false, summary := some "Nothing to copy." } }, [])
          else
            processNextTransferStep platform surroundings { app with transfer := some prepared }
      | .error error =>
          ({ app with
             transfer := some
               { transfer with
                 preparing := false
                 running := false
                 summary := some ("Transfer preparation failed: " ++ error) } }, [])

def handleTransferStepFinished (platform : Platform) (surroundings : Surroundings) (app : App)
    (result : Except String TransferStepResult) : App × List AppTask :=
  match app.transfer with
  | none => (app, [])
  | some transfer =>
      match result with
      | .ok (.conflict item) =>
          ({ app with
             transfer := some
               { transfer with
                 pendingConflict := some item
                 currentItem := none
                 running := false } }, [])
      | .ok (.copied label) =>
          processNextTransferStep platform surroundings
            { app with
              transfer := some
                { transfer with
                  completed := transfer.completed + 1
                  nextIndex := transfer.nextIndex + 1
                  currentItem := some label } }
      | .ok (.skipped label) =>
          processNextTransferStep platform surroundings
            { app with
              transfer := some
                { transfer with
                  skipped := transfer.skipped + 1
                  nextIndex := transfer.nextIndex + 1
                  currentItem := some label } }
      | .error error =>
          processNextTransferStep platform surroundings
            { app with
              transfer := some
                { transfer with
                  failed := transfer.failed + 1
                  nextIndex := transfer.nextIndex + 1 }
              error := some ("Transfer failed: " ++ error) }

/-- An answer to a conflict. Overwriting runs the conflicting item again as a plain
copy, also in a move. -/
def resolveTransferConflict (platform : Platform) (surroundings : Surroundings) (app : App)
    (skip remember : Bool) : App × List AppTask :=
  match app.transfer with
  | none => (app, [])
  | some transfer =>
      match transfer.pendingConflict with
      | none => (app, [])
      | some item =>
          let transfer :=
            { transfer with
              pendingConflict := none
              overwritePolicy :=
                if remember then (if skip then .skipAll else .overwriteAll)
                else transfer.overwritePolicy }
          if skip then
            processNextTransferStep platform surroundings
              { app with
                transfer := some
                  { transfer with
                    skipped := transfer.skipped + 1
                    nextIndex := transfer.nextIndex + 1
                    currentItem := some (item.label platform) } }
          else
            let app := { app with transfer := some { transfer with running := true } }
            (app, [app.transferStepTask surroundings item .overwriteAll false])

def handleTransferConflictOverwrite (platform : Platform) (surroundings : Surroundings)
    (app : App) : App × List AppTask :=
  resolveTransferConflict platform surroundings app false false

def handleTransferConflictSkip (platform : Platform) (surroundings : Surroundings)
    (app : App) : App × List AppTask :=
  resolveTransferConflict platform surroundings app true false

def handleTransferConflictOverwriteAll (platform : Platform) (surroundings : Surroundings)
    (app : App) : App × List AppTask :=
  resolveTransferConflict platform surroundings app false true

def handleTransferConflictSkipAll (platform : Platform) (surroundings : Surroundings)
    (app : App) : App × List AppTask :=
  resolveTransferConflict platform surroundings app true true

end AbixioUi
