import Beetkeeper.Transition
import Beetkeeper.StagedInit
import Beetkeeper.KeyedTable
import Beetkeeper.LexicalPath
import Beetkeeper.FileTree
import Beetkeeper.FileRemoval
import Beetkeeper.ImportJobs
import Beetkeeper.ImportStore
import Beetkeeper.ImportWorker
import Beetkeeper.WorkerSteps
import Beetkeeper.JobOwnership
import Beetkeeper.FinalStatus
import Beetkeeper.LeaderLease
import Beetkeeper.LeaseInterval
import Beetkeeper.StoreProcesses
import Beetkeeper.ClaimOrder
import Beetkeeper.Paging
import Beetkeeper.JobListing
import Beetkeeper.JobColumns
import Beetkeeper.StoreRefinement
import Beetkeeper.DecisionMatching
import Beetkeeper.DecisionLedger
import Beetkeeper.ImportConfig
import Beetkeeper.LibraryOpening
import Beetkeeper.LayeredMap
import Beetkeeper.PyText
import Beetkeeper.ImportSubmission
import Beetkeeper.BeetsLibrary
import Beetkeeper.CleanSlate
import Beetkeeper.CleanSlateRemoval
import Beetkeeper.CleanSlateContract
import Beetkeeper.SourceSafety
import Beetkeeper.AbortedCleanSlate
import Beetkeeper.EntryIdentity
import Beetkeeper.AbandonedJobs
import Beetkeeper.QueueDrain
import Beetkeeper.OrphanRecovery
import Beetkeeper.AbortOutcome
import Beetkeeper.OutputStreaming
import Beetkeeper.LibrarySeparation
import Beetkeeper.StartupUpgrade
import Beetkeeper.SchemaScript
import Beetkeeper.Migrations
import Beetkeeper.EventModels
import Beetkeeper.EventRoutes
import Beetkeeper.GroupedRows
import Beetkeeper.EventLedger
import Beetkeeper.EventListing
import Beetkeeper.GreedyPairing
import Beetkeeper.EventMerge
import Beetkeeper.TaskRows
import Beetkeeper.SourcePathLookup
import Beetkeeper.AuthSessions
import Beetkeeper.FormUrl
import Beetkeeper.LoginFlow
import Beetkeeper.ShellWords
import Beetkeeper.SearchPages
import Beetkeeper.PluginClient
import Beetkeeper.ImportPush
import Beetkeeper.CandidateChoice
import Beetkeeper.InferredPaths
import Beetkeeper.SearchRows
import Beetkeeper.CleanSlateLink
import Beetkeeper.InferenceFollow
import Beetkeeper.InterruptibleProgram
import Beetkeeper.InterruptedRemoval
import Beetkeeper.PartnerWindow
import Beetkeeper.TrackTotals
import Beetkeeper.TemplateValues
import Beetkeeper.SetFieldsForm
import Beetkeeper.PosixPath
import Beetkeeper.DownloaderHook
import Beetkeeper.ImportPaths
import Beetkeeper.EventLookup
import Beetkeeper.SourcePathSearch
import Beetkeeper.JobPages
import Beetkeeper.FilesColumn
import Beetkeeper.EventPages
import Beetkeeper.OpenSettings
