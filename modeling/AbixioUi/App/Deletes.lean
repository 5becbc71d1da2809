import AbixioUi.App.State

/-! # Bulk, prefix and bucket deletes

Each modal holds the keys it will delete and takes its client from the application
at every step. Bulk and prefix deletes send the keys in batches, a bucket delete
sends them one by one and then deletes the bucket.
-/

namespace AbixioUi

open Foundation

/-- The keys of the next request of a bulk or prefix delete. -/
def nextKeyBatch (keys : List Str) (nextIndex : Nat) : List Str :=
  (keys.drop nextIndex).take DELETE_BATCH_LIMIT

/-- The application after the last batch: the listing is refreshed and the summary shown. -/
def App.deletesDone (app : App) (summary : String) : App × List AppTask :=
  let app := { app with selectedKeys := [], loadingObjects := true, error := some summary }
  (app, app.fetchObjects)

/-! ## Bulk delete -/

def processNextBulkDeleteStep (app : App) : App × List AppTask :=
  match app.bulkDelete with
  | none => (app, [])
  | some state =>
      if state.nextIndex < state.keys.length then
        let batch := nextKeyBatch state.keys state.nextIndex
        ({ app with
           bulkDelete := some
             { state with deleting := true, nextIndex := state.nextIndex + batch.length } },
          [.deleteBulk app.client state.bucket batch])
      else
        { app with bulkDelete := none }.deletesDone
          ("Deleted " ++ toString state.deleted ++ " of " ++ toString state.total ++ " objects")

def handleOpenBulkDeleteModal (app : App) : App × List AppTask :=
  match app.selectedBucket with
  | none => (app, [])
  | some bucket =>
      if app.selectedKeys = [] then (app, [])
      else
        ({ app with
           bulkDelete := some
             { bucket := bucket
               keys := app.selectedKeys
               total := app.selectedKeys.length
               deleted := 0
               nextIndex := 0
               deleting := false
               summary := none } }, [])

def handleCloseBulkDeleteModal (app : App) : App × List AppTask :=
  ({ app with bulkDelete := none }, [])

def handleConfirmBulkDelete (app : App) : App × List AppTask := processNextBulkDeleteStep app

def handleBulkDeleteBatchFinished (app : App) (result : Except String Nat) :
    App × List AppTask :=
  match app.bulkDelete with
  | none => (app, [])
  | some state =>
      match result with
      | .ok count =>
          processNextBulkDeleteStep
            { app with
              bulkDelete := some
                { state with
                  deleted := state.deleted + count
                  summary := some ("Deleting: " ++ toString (state.deleted + count) ++ "/" ++
                    toString state.total ++ " done") } }
      | .error error =>
          ({ app with
             bulkDelete := some
               { state with
                 deleting := false
                 summary := some ("Stopped after " ++ toString state.deleted ++ "/" ++
                   toString state.total ++ ": " ++ error) }
             error := some ("Bulk delete failed: " ++ error) }, [])

/-! ## Prefix delete -/

def processNextPrefixDeleteBatch (app : App) : App × List AppTask :=
  match app.prefixDelete with
  | none => (app, [])
  | some state =>
      if state.nextIndex < state.keys.length then
        let batch := nextKeyBatch state.keys state.nextIndex
        ({ app with
           prefixDelete := some
             { state with deleting := true, nextIndex := state.nextIndex + batch.length } },
          [.deletePrefix app.client state.bucket batch])
      else
        { app with prefixDelete := none }.deletesDone
          ("Deleted " ++ toString state.deleted ++ " of " ++ toString state.total ++
            " objects under prefix")

def handleOpenPrefixDeleteModal (app : App) (keyPrefix : Str) : App × List AppTask :=
  match app.selectedBucket with
  | none => (app, [])
  | some bucket =>
      ({ app with
         prefixDelete := some
           { bucket := bucket
             keyPrefix := keyPrefix
             keys := []
             loading := true
             total := 0
             deleted := 0
             nextIndex := 0
             deleting := false
             summary := none } },
        [.listPrefix app.client bucket keyPrefix])

def handleClosePrefixDeleteModal (app : App) : App × List AppTask :=
  ({ app with prefixDelete := none }, [])

def handlePrefixDeleteListLoaded (app : App) (result : Except String (List Str)) :
    App × List AppTask :=
  match app.prefixDelete with
  | none => (app, [])
  | some state =>
      match result with
      | .ok keys =>
          ({ app with
             prefixDelete := some
               { state with loading := false, total := keys.length, keys := keys } }, [])
      | .error e =>
          ({ app with
             prefixDelete := some
               { state with loading := false, summary := some ("Failed to list: " ++ e) } }, [])

def handleConfirmPrefixDelete (app : App) : App × List AppTask :=
  processNextPrefixDeleteBatch app

def handlePrefixDeleteBatchFinished (app : App) (result : Except String Nat) :
    App × List AppTask :=
  match app.prefixDelete with
  | none => (app, [])
  | some state =>
      match result with
      | .ok count =>
          processNextPrefixDeleteBatch
            { app with
              prefixDelete := some
                { state with
                  deleted := state.deleted + count
                  summary := some ("Deleting: " ++ toString (state.deleted + count) ++ "/" ++
                    toString state.total ++ " done") } }
      | .error error =>
          ({ app with
             prefixDelete := some
               { state with
                 deleting := false
                 summary := some ("Stopped after " ++ toString state.deleted ++ "/" ++
                   toString state.total ++ ": " ++ error) }
             error := some ("Prefix delete failed: " ++ error) }, [])

/-! ## Bucket delete -/

def App.bucketDeleteCanStart (app : App) : Bool :=
  match app.bucketDelete with
  | none => false
  | some state =>
      !state.previewLoading && !state.deleting && decide (state.confirmName = state.bucket) &&
        decide (state.bucket ≠ [])

def processNextBucketDeleteStep (app : App) : App × List AppTask :=
  match app.bucketDelete with
  | none => (app, [])
  | some state =>
      if state.previewLoading = true ∨ state.confirmName ≠ state.bucket then (app, [])
      else
        ({ app with bucketDelete := some { state with deleting := true } },
          match state.objectKeys[state.nextIndex]? with
          | some key => [.deleteBucketObject app.client state.bucket key]
          | none => [.deleteBucket app.client state.bucket])

def handleOpenDeleteBucketModal (app : App) : App × List AppTask :=
  match app.currentSelectedBucket with
  | none => (app, [])
  | some bucket =>
      ({ app with
         bucketDelete := some
           { bucket := bucket
             confirmName := []
             previewLoading := true
             objectKeys := []
             totalObjects := 0
             deletedObjects := 0
             nextIndex := 0
             deleting := false
             summary := none } },
        [.previewBucket app.client bucket])

def handleCloseDeleteBucketModal (app : App) : App × List AppTask :=
  match app.bucketDelete with
  | none => ({ app with bucketDelete := none }, [])
  | some state => if state.deleting then (app, []) else ({ app with bucketDelete := none }, [])

/-- The preview names its bucket, and one for another bucket is dropped. -/
def handleBucketDeletePreviewLoaded (app : App) (bucket : Str)
    (result : Except String (List Str)) : App × List AppTask :=
  match app.bucketDelete with
  | none => (app, [])
  | some state =>
      if state.bucket ≠ bucket then (app, [])
      else
        match result with
        | .ok keys =>
            ({ app with
               bucketDelete := some
                 { state with
                   previewLoading := false
                   totalObjects := keys.length
                   objectKeys := keys
                   summary := some
                     (if keys.length = 0 then "Bucket is empty."
                      else "Bucket contains " ++ toString keys.length ++
                        " object(s). Delete will remove them recursively.") } }, [])
        | .error error =>
            ({ app with
               bucketDelete := some
                 { state with
                   previewLoading := false
                   summary := some ("Preview failed: " ++ error) } }, [])

def handleBucketDeleteConfirmNameChanged (app : App) (value : Str) : App × List AppTask :=
  ({ app with
     bucketDelete := app.bucketDelete.map fun state => { state with confirmName := value } }, [])

def handleConfirmDeleteBucket (app : App) : App × List AppTask := processNextBucketDeleteStep app

/-- The application after its selected bucket is gone. -/
def App.bucketGone (app : App) : App :=
  { app with
    selectedBucket := none
    selection := .none
    currentPrefix := []
    selectedKeys := [] }

def handleBucketDeleteStepFinished (app : App) (result : Except String BucketDeleteStepResult) :
    App × List AppTask :=
  match app.bucketDelete with
  | none => (app, [])
  | some state =>
      match result with
      | .ok (.objectDeleted label) =>
          processNextBucketDeleteStep
            { app with
              bucketDelete := some
                { state with
                  deletedObjects := state.deletedObjects + 1
                  nextIndex := state.nextIndex + 1
                  summary := some ("Deleting objects: " ++ toString (state.deletedObjects + 1) ++
                    "/" ++ toString state.totalObjects ++ " complete. Last: " ++
                    String.ofList label) } }
      | .ok (.bucketDeleted bucket) =>
          let app := { app with bucketDelete := none }
          let app := if app.selectedBucket = some bucket then app.bucketGone else app
          ({ app with loadingBuckets := true }, app.fetchBuckets)
      | .error error =>
          let app :=
            { app with
              bucketDelete := some
                { state with
                  deleting := false
                  summary := some ("Delete stopped after " ++ toString state.deletedObjects ++
                    " of " ++ toString state.totalObjects ++ " objects: " ++ error) }
              error := some ("Delete bucket failed: " ++ error) }
          if app.selectedBucket = some state.bucket then
            ({ app with loadingObjects := true }, app.fetchBuckets ++ app.fetchObjects)
          else ({ app with loadingBuckets := true }, app.fetchBuckets)

end AbixioUi
