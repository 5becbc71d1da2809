import AbixioUi.Sync.Extras
import AbixioUi.Sync.Idempotence
import AbixioUi.Sync.Separation
import AbixioUi.Sync.RunOrder
import AbixioUi.Sync.RunFinish
import AbixioUi.Sync.DeleteAccounting
import AbixioUi.Sync.PlanShape
import AbixioUi.Sync.FilteredPlan
import AbixioUi.App.Provenance
import AbixioUi.App.Confirmed
import AbixioUi.App.Redirect
import AbixioUi.App.Overlap
import AbixioUi.App.TransferCount
import AbixioUi.App.SelfMove
import AbixioUi.App.Downloads
import AbixioUi.App.CurrentConnection
import AbixioUi.App.Launcher
import AbixioUi.Sync.Validation
import AbixioUi.Browse.Shown
import AbixioUi.Browse.Spinners
import AbixioUi.Browse.Versions
import AbixioUi.Browse.Sharing
import AbixioUi.Browse.AdminPages
import AbixioUi.Browse.Documents
import AbixioUi.Browse.Listed
import AbixioUi.Browse.Tags
import AbixioUi.S3.LifecycleRoundTrip
import AbixioUi.Glob.Slices
import AbixioUi.Glob.Patterns
import AbixioUi.Sync.Comparing
import AbixioUi.App.DeleteBatches
import AbixioUi.App.BucketDelete
import AbixioUi.Sync.Pruning
import AbixioUi.Sync.SkipReport
import AbixioUi.Browse.SelectAll
import AbixioUi.Sync.AgeFilter
import AbixioUi.S3.Paging
import AbixioUi.Perf
import AbixioUi.Sync.DeletePartition
import AbixioUi.App.SyncItem
import AbixioUi.App.SyncOutcome
import AbixioUi.App.ImportExport
import AbixioUi.App.Preview
import AbixioUi.App.SavedConnections
import AbixioUi.App.Restart
import AbixioUi.App.ServerSettings
import AbixioUi.App.Pickers
import AbixioUi.Browse.SelfTests
import AbixioUi.Admin.Signing
import AbixioUi.Admin.SignedRequests
