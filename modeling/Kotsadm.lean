import Kotsadm.Lib.Machine
import Kotsadm.Lib.Keyed
import Kotsadm.Store.Database
import Kotsadm.Store.KotsAppStore
import Kotsadm.Lib.Throws
import Kotsadm.Sockets.DeploySocket
import Kotsadm.Sockets.DeployedVersion
import Kotsadm.Sockets.Pruning
import Kotsadm.Sockets.DeployResults
import Kotsadm.Sockets.RestoreLoop
import Kotsadm.Lib.Deferred
import Kotsadm.Store.Server
import Kotsadm.Version.CreateVersion
import Kotsadm.Version.Numbering
import Kotsadm.Version.Preflight
import Kotsadm.Flows.Install
import Kotsadm.Flows.InstallOutcome
import Kotsadm.Flows.Update
import Kotsadm.Flows.UpdateOutcome
import Kotsadm.Flows.Request
import Kotsadm.Flows.CurrentArchive
import Kotsadm.Lib.Processes
import Kotsadm.Version.Interleaving
import Kotsadm.Version.ConcurrentCreation
import Kotsadm.Api.Graphql
import Kotsadm.Lib.Split
import Kotsadm.Api.Sessions
import Kotsadm.Version.FirstVersion
import Kotsadm.GitOps.CreateGitOpsCommit
import Kotsadm.Version.AllOrNothing
import Kotsadm.Flows.Retry
import Kotsadm.Sockets.Ticks
import Kotsadm.Sockets.OncePerConnection
import Kotsadm.Sockets.Redeployment
import Kotsadm.Version.PreflightRerun
import Kotsadm.Version.CurrentVersion
import Kotsadm.Flows.ConfigSteps
import Kotsadm.Flows.ConfigStatus
import Kotsadm.Flows.FinishedTask
import Kotsadm.Flows.LongRunning
import Kotsadm.Lib.Path
import Kotsadm.Flows.Extraction
import Kotsadm.Flows.LaterVersions
import Kotsadm.Lib.GoText
import Kotsadm.Snapshots.AzureConfig
import Kotsadm.Snapshots.GlobalStore
import Kotsadm.Snapshots.Replicas
import Kotsadm.Snapshots.ScheduledOnce
import Kotsadm.Snapshots.SingleRun
import Kotsadm.Snapshots.StoredExactly
import Kotsadm.AppState.AppMonitor
import Kotsadm.AppState.WindDown
import Kotsadm.AppState.Monitor
import Kotsadm.AppState.StatusReports
import Kotsadm.Lib.Effects
import Kotsadm.Lib.Grouping
import Kotsadm.Lib.Separator
import Kotsadm.Lib.TwoRuns
import Kotsadm.Operator.Batches
import Kotsadm.Operator.DeployOutcome
import Kotsadm.Snapshots.SecretsHidden
import Kotsadm.Operator.ProtocolRoundTrip
import Kotsadm.Lib.Json
import Kotsadm.Snapshots.CreateRestore
import Kotsadm.Lib.NumberText
import Kotsadm.Snapshots.DeployedBackup
import Kotsadm.Version.PreflightUpload
import Kotsadm.Registry.PasswordRoundTrip
import Kotsadm.Version.History
import Kotsadm.Version.ConfirmedStatus
import Kotsadm.AppState.Notifications
import Kotsadm.KurlProxy.AnonymousUploads
import Kotsadm.Lib.NodeBuffer
import Kotsadm.GitOps.DownstreamRoundTrip
import Kotsadm.GitOps.Providers
import Kotsadm.Operator.ArrivalOrder
import Kotsadm.Operator.Reconnect
import Kotsadm.Flows.LostUpdates
import Kotsadm.GitOps.ReadersAgree
import Kotsadm.AppState.ReadyServices
import Kotsadm.AppState.CanonicalOrder
import Kotsadm.AppState.StatusInformerString
import Kotsadm.Operator.InLoop
import Kotsadm.Store.DeleteApp
import Kotsadm.Store.AppSlugs
import Kotsadm.Kurl.Purge
import Kotsadm.Lib.Visits
import Kotsadm.Sockets.BrokenApps
import Kotsadm.Snapshots.ScheduleLoop
import Kotsadm.Operator.Throttler
import Kotsadm.Lib.Dictionary
import Kotsadm.Lib.Sessions
import Kotsadm.Snapshots.ParseBackupLogs
import Kotsadm.Lib.Filter
import Kotsadm.Snapshots.LostErrors
import Kotsadm.Snapshots.UnfinishedBackups
import Kotsadm.Snapshots.AzureRoundTrip
import Kotsadm.Snapshots.SettingsMerge
import Kotsadm.Snapshots.SettingsWritten
import Kotsadm.Snapshots.SettingsKept
import Kotsadm.Snapshots.SettingsApplied
import Kotsadm.Lib.JsInteger
import Kotsadm.Snapshots.SnapshotTTL
import Kotsadm.Lib.EditScript
import Kotsadm.Downstream.DiffContent
import Kotsadm.Downstream.FilesChanged
import Kotsadm.Lib.Forest
import Kotsadm.SupportBundle.FileTree
import Kotsadm.Api.FileTree
import Kotsadm.Flows.LatestPerCursor
import Kotsadm.Kotsutil.ConfigValues
import Kotsadm.Flows.ConfigMerge
import Kotsadm.Flows.NilValues
import Kotsadm.Flows.CompleteConfig
import Kotsadm.Operator.ClearNamespace
import Kotsadm.Store.SlugLoop
import Kotsadm.Flows.LicenseSync
import Kotsadm.Store.DeployStatus
import Kotsadm.Lib.GitRepository
import Kotsadm.GitOps.CreateGitCommit
import Kotsadm.GitOps.InitialCommits
import Kotsadm.Lib.Utf8
import Kotsadm.Flows.ExtractedContents
import Kotsadm.Troubleshoot.Tarball
import Kotsadm.Lib.LabelSelector
import Kotsadm.Kurl.Drain
import Kotsadm.Kurl.PurgeOSD
import Kotsadm.Lib.Recursion
import Kotsadm.SupportBundle.Termination
import Kotsadm.Lib.Refinement
import Kotsadm.Lib.Rpc
import Kotsadm.Operator.Connection
import Kotsadm.Operator.ConnectionSteps
import Kotsadm.Operator.SendOrder
import Kotsadm.Operator.Waiters
import Kotsadm.Operator.Acks
import Kotsadm.Operator.Closing
import Kotsadm.Kurl.NodeJoin
import Kotsadm.Kurl.JoinTokens
import Kotsadm.Kurl.JoinCerts
import Kotsadm.Lib.Versioned
import Kotsadm.Snapshots.BackupInformer
import Kotsadm.Snapshots.BackupBundles
import Kotsadm.Snapshots.BundleArchives
import Kotsadm.Sockets.SupportBundleLoop
import Kotsadm.Sockets.PendingBundles
import Kotsadm.Api.ServerStart
import Kotsadm.Api.LocalCluster
import Kotsadm.Snapshots.VolumeSummary
import Kotsadm.Snapshots.FinalSummary
import Kotsadm.Snapshots.SummaryReports
import Kotsadm.Operator.ImagePullSecrets
import Kotsadm.Operator.PullSecrets
