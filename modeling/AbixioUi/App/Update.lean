import AbixioUi.App.Connections
import AbixioUi.App.Deletes
import AbixioUi.App.SyncScreen
import AbixioUi.App.Transfers
import AbixioUi.Foundation.Runs
import AbixioUi.Sync.RunInvariant

/-! # Messages and their handlers

The application handles one message at a time. What it starts with a message runs beside
it, and comes back as a message of its own.
-/

namespace AbixioUi

open Foundation

inductive Message
  | openSync
  | closeSync
  | syncModeChanged (mode : SyncMode)
  | syncPresetChanged (preset : SyncPreset)
  | syncSourceKindChanged (kind : SyncEndpointKind)
  | syncDestinationKindChanged (kind : SyncEndpointKind)
  | syncSourceConnectionChanged (connectionId : Str)
  | syncDestinationConnectionChanged (connectionId : Str)
  | syncSourceBucketChanged (bucket : Str)
  | syncDestinationBucketChanged (bucket : Str)
  | syncSourcePrefixChanged (keyPrefix : Str)
  | syncDestinationPrefixChanged (keyPrefix : Str)
  | pickSyncSourceLocalPath
  | pickSyncDestinationLocalPath
  | syncSourceLocalPathPicked (path : Option PathBuf)
  | syncDestinationLocalPathPicked (path : Option PathBuf)
  | syncSourceBucketsLoaded (result : Except String (List Str))
  | syncDestinationBucketsLoaded (result : Except String (List Str))
  | syncCompareModeChanged (mode : SyncCompareMode)
  | syncListModeChanged (mode : SyncListMode)
  | syncListWorkersChanged (value : Str)
  | syncCompareWorkersChanged (value : Str)
  | syncTransferWorkersChanged (value : Str)
  | syncFastListToggled (enabled : Bool)
  | syncPreferServerModtimeToggled (enabled : Bool)
  | syncMaxPlannerItemsChanged (value : Str)
  | syncBwlimitChanged (value : Str)
  | syncMultipartCutoffChanged (value : Str)
  | syncMultipartChunkSizeChanged (value : Str)
  | syncOverwriteChanged (enabled : Bool)
  | syncDeleteExtrasChanged (enabled : Bool)
  | syncDestinationNewerPolicyChanged (destinationNewer : SyncDestinationNewerPolicy)
  | syncDeletePhaseChanged (phase : SyncDeletePhase)
  | syncIgnoreErrorsChanged (enabled : Bool)
  | syncDeleteWorkersChanged (value : Str)
  | syncMaxDeleteCountChanged (value : Str)
  | syncMaxDeleteBytesChanged (value : Str)
  | syncIncludePatternsChanged (value : Str)
  | syncExcludePatternsChanged (value : Str)
  | syncNewerThanChanged (value : Str)
  | syncOlderThanChanged (value : Str)
  | syncMinSizeChanged (value : Str)
  | syncMaxSizeChanged (value : Str)
  | toggleSyncAdvanced
  | startSyncPlan
  | syncSourceEnumerated (result : Except String (List SyncObject))
  | syncDestinationEnumerated (result : Except String (List SyncObject))
  | syncPlanBuilt (result : Except String SyncPlan)
  | startSyncCopy
  | syncCopyStepFinished (result : Except String SyncRunItem)
  | startSync
  | cancelSyncDeleteConfirm
  | syncDeleteConfirmTextChanged (value : Str)
  | confirmSyncDeleteRun
  | syncDeleteBatchFinished (result : Except String SyncDeleteBatchResult)
  | connectTo (name : Str)
  | addConnection
  | editConnection (name : Str)
  | removeConnection (name : Str)
  | newConnNameChanged (value : Str)
  | newConnEndpointChanged (value : Str)
  | newConnRegionChanged (value : Str)
  | newConnAccessKeyChanged (value : Str)
  | newConnSecretKeyChanged (value : Str)
  | startServer
  | stopServer
  | serverExited
  | serverAutoConnect (endpoint : Str) (noAuth : Bool)
  | openCopyObject
  | openMoveObject
  | openRenameObject
  | openImportFolder
  | openExportPrefix
  | closeTransferModal
  | transferDestinationConnectionChanged (connectionId : Str)
  | transferDestinationBucketChanged (bucket : Str)
  | transferDestinationKeyChanged (key : Str)
  | transferDestinationBucketsLoaded (result : Except String (List Str))
  | startTransfer
  | transferPrepared (result : Except String (List TransferItem))
  | transferStepFinished (result : Except String TransferStepResult)
  | transferConflictOverwrite
  | transferConflictSkip
  | transferConflictOverwriteAll
  | transferConflictSkipAll
  | openBulkDeleteModal
  | closeBulkDeleteModal
  | confirmBulkDelete
  | bulkDeleteBatchFinished (result : Except String Nat)
  | openPrefixDeleteModal (keyPrefix : Str)
  | closePrefixDeleteModal
  | prefixDeleteListLoaded (result : Except String (List Str))
  | confirmPrefixDelete
  | prefixDeleteBatchFinished (result : Except String Nat)
  | openDeleteBucketModal
  | closeDeleteBucketModal
  | bucketDeletePreviewLoaded (bucket : Str) (result : Except String (List Str))
  | bucketDeleteConfirmNameChanged (value : Str)
  | confirmDeleteBucket
  | bucketDeleteStepFinished (result : Except String BucketDeleteStepResult)

def App.update (platform : Platform) (surroundings : Surroundings) (app : App) :
    Message → App × List AppTask
  | .openSync => handleOpenSync app
  | .closeSync => handleCloseSync app
  | .syncModeChanged mode => handleSyncModeChanged app mode
  | .syncPresetChanged preset => handleSyncPresetChanged app preset
  | .syncSourceKindChanged kind => handleSyncSourceKindChanged app kind
  | .syncDestinationKindChanged kind => handleSyncDestinationKindChanged app kind
  | .syncSourceConnectionChanged connectionId =>
      handleSyncSourceConnectionChanged surroundings app connectionId
  | .syncDestinationConnectionChanged connectionId =>
      handleSyncDestinationConnectionChanged surroundings app connectionId
  | .syncSourceBucketChanged bucket => handleSyncSourceBucketChanged app bucket
  | .syncDestinationBucketChanged bucket => handleSyncDestinationBucketChanged app bucket
  | .syncSourcePrefixChanged keyPrefix => handleSyncSourcePrefixChanged app keyPrefix
  | .syncDestinationPrefixChanged keyPrefix => handleSyncDestinationPrefixChanged app keyPrefix
  | .pickSyncSourceLocalPath => handlePickSyncSourceLocalPath surroundings app
  | .pickSyncDestinationLocalPath => handlePickSyncDestinationLocalPath surroundings app
  | .syncSourceLocalPathPicked path => handleSyncSourceLocalPathPicked app path
  | .syncDestinationLocalPathPicked path => handleSyncDestinationLocalPathPicked app path
  | .syncSourceBucketsLoaded result => handleSyncSourceBucketsLoaded app result
  | .syncDestinationBucketsLoaded result => handleSyncDestinationBucketsLoaded app result
  | .syncCompareModeChanged mode => handleSyncCompareModeChanged app mode
  | .syncListModeChanged mode => handleSyncListModeChanged app mode
  | .syncListWorkersChanged value => handleSyncListWorkersChanged app value
  | .syncCompareWorkersChanged value => handleSyncCompareWorkersChanged app value
  | .syncTransferWorkersChanged value => handleSyncTransferWorkersChanged app value
  | .syncFastListToggled enabled => handleSyncFastListToggled app enabled
  | .syncPreferServerModtimeToggled enabled => handleSyncPreferServerModtimeToggled app enabled
  | .syncMaxPlannerItemsChanged value => handleSyncMaxPlannerItemsChanged app value
  | .syncBwlimitChanged value => handleSyncBwlimitChanged app value
  | .syncMultipartCutoffChanged value => handleSyncMultipartCutoffChanged app value
  | .syncMultipartChunkSizeChanged value => handleSyncMultipartChunkSizeChanged app value
  | .syncOverwriteChanged enabled => handleSyncOverwriteChanged app enabled
  | .syncDeleteExtrasChanged enabled => handleSyncDeleteExtrasChanged app enabled
  | .syncDestinationNewerPolicyChanged destinationNewer =>
      handleSyncDestinationNewerPolicyChanged app destinationNewer
  | .syncDeletePhaseChanged phase => handleSyncDeletePhaseChanged app phase
  | .syncIgnoreErrorsChanged enabled => handleSyncIgnoreErrorsChanged app enabled
  | .syncDeleteWorkersChanged value => handleSyncDeleteWorkersChanged app value
  | .syncMaxDeleteCountChanged value => handleSyncMaxDeleteCountChanged app value
  | .syncMaxDeleteBytesChanged value => handleSyncMaxDeleteBytesChanged app value
  | .syncIncludePatternsChanged value => handleSyncIncludePatternsChanged app value
  | .syncExcludePatternsChanged value => handleSyncExcludePatternsChanged app value
  | .syncNewerThanChanged value => handleSyncNewerThanChanged app value
  | .syncOlderThanChanged value => handleSyncOlderThanChanged app value
  | .syncMinSizeChanged value => handleSyncMinSizeChanged app value
  | .syncMaxSizeChanged value => handleSyncMaxSizeChanged app value
  | .toggleSyncAdvanced => handleToggleSyncAdvanced app
  | .startSyncPlan => handleStartSyncPlan surroundings app
  | .syncSourceEnumerated result => handleSyncSourceEnumerated surroundings app result
  | .syncDestinationEnumerated result => handleSyncDestinationEnumerated app result
  | .syncPlanBuilt result => handleSyncPlanBuilt platform app result
  | .startSyncCopy => handleStartSyncCopy surroundings app
  | .syncCopyStepFinished result => handleSyncCopyStepFinished surroundings app result
  | .startSync => handleStartSync surroundings app
  | .cancelSyncDeleteConfirm => handleCancelSyncDeleteConfirm app
  | .syncDeleteConfirmTextChanged value => handleSyncDeleteConfirmTextChanged app value
  | .confirmSyncDeleteRun => handleConfirmSyncDeleteRun surroundings app
  | .syncDeleteBatchFinished result => handleSyncDeleteBatchFinished surroundings app result
  | .connectTo name => handleConnectTo surroundings app name
  | .addConnection => handleAddConnection surroundings app
  | .editConnection name => handleEditConnection app name
  | .removeConnection name => handleRemoveConnection surroundings app name
  | .newConnNameChanged value => handleNewConnNameChanged app value
  | .newConnEndpointChanged value => handleNewConnEndpointChanged app value
  | .newConnRegionChanged value => handleNewConnRegionChanged app value
  | .newConnAccessKeyChanged value => handleNewConnAccessKeyChanged app value
  | .newConnSecretKeyChanged value => handleNewConnSecretKeyChanged app value
  | .startServer => handleStartServer surroundings app
  | .stopServer => handleStopServer app
  | .serverExited => handleServerExited app
  | .serverAutoConnect endpoint noAuth => handleServerAutoConnect app endpoint noAuth
  | .openCopyObject => handleOpenCopyObject surroundings app
  | .openMoveObject => handleOpenMoveObject app
  | .openRenameObject => handleOpenRenameObject app
  | .openImportFolder => handleOpenImportFolder surroundings app
  | .openExportPrefix => handleOpenExportPrefix surroundings app
  | .closeTransferModal => handleCloseTransferModal app
  | .transferDestinationConnectionChanged connectionId =>
      handleTransferDestinationConnectionChanged surroundings app connectionId
  | .transferDestinationBucketChanged bucket => handleTransferDestinationBucketChanged app bucket
  | .transferDestinationKeyChanged key => handleTransferDestinationKeyChanged app key
  | .transferDestinationBucketsLoaded result =>
      handleTransferDestinationBucketsLoaded app result
  | .startTransfer => handleStartTransfer app
  | .transferPrepared result => handleTransferPrepared platform surroundings app result
  | .transferStepFinished result => handleTransferStepFinished platform surroundings app result
  | .transferConflictOverwrite => handleTransferConflictOverwrite platform surroundings app
  | .transferConflictSkip => handleTransferConflictSkip platform surroundings app
  | .transferConflictOverwriteAll => handleTransferConflictOverwriteAll platform surroundings app
  | .transferConflictSkipAll => handleTransferConflictSkipAll platform surroundings app
  | .openBulkDeleteModal => handleOpenBulkDeleteModal app
  | .closeBulkDeleteModal => handleCloseBulkDeleteModal app
  | .confirmBulkDelete => handleConfirmBulkDelete app
  | .bulkDeleteBatchFinished result => handleBulkDeleteBatchFinished app result
  | .openPrefixDeleteModal keyPrefix => handleOpenPrefixDeleteModal app keyPrefix
  | .closePrefixDeleteModal => handleClosePrefixDeleteModal app
  | .prefixDeleteListLoaded result => handlePrefixDeleteListLoaded app result
  | .confirmPrefixDelete => handleConfirmPrefixDelete app
  | .prefixDeleteBatchFinished result => handlePrefixDeleteBatchFinished app result
  | .openDeleteBucketModal => handleOpenDeleteBucketModal app
  | .closeDeleteBucketModal => handleCloseDeleteBucketModal app
  | .bucketDeletePreviewLoaded bucket result => handleBucketDeletePreviewLoaded app bucket result
  | .bucketDeleteConfirmNameChanged value => handleBucketDeleteConfirmNameChanged app value
  | .confirmDeleteBucket => handleConfirmDeleteBucket app
  | .bucketDeleteStepFinished result => handleBucketDeleteStepFinished app result

end AbixioUi
