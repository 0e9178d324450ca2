import StackPolicy.Analysis
import StackPolicy.Analysis.Reader
import StackPolicy.App
import StackPolicy.App.Reader
import StackPolicy.App.Writer
import StackPolicy.Binary64
import StackPolicy.Binary64.Shortest
import StackPolicy.Channel
import StackPolicy.Compression
import StackPolicy.Console
import StackPolicy.Context
import StackPolicy.Engine
import StackPolicy.Failure
import StackPolicy.LatePartition
import StackPolicy.Location
import StackPolicy.Obligation
import StackPolicy.Ownership
import StackPolicy.Proofs.AcceptedApps
import StackPolicy.Proofs.Accounting
import StackPolicy.Proofs.AddedTasks
import StackPolicy.Proofs.Ceilings
import StackPolicy.Proofs.ChannelContents
import StackPolicy.Proofs.ChannelPlan
import StackPolicy.Proofs.CleanApps
import StackPolicy.Proofs.CompressedApps
import StackPolicy.Proofs.CompressedLocks
import StackPolicy.Proofs.CompressedQueues
import StackPolicy.Proofs.CompressedReads
import StackPolicy.Proofs.CompressedTransfers
import StackPolicy.Proofs.Compression
import StackPolicy.Proofs.ConcurrentReads
import StackPolicy.Proofs.Contexts
import StackPolicy.Proofs.DistinctNames
import StackPolicy.Proofs.GapFree
import StackPolicy.Proofs.GrownApps
import StackPolicy.Proofs.GrownPlans
import StackPolicy.Proofs.Growth
import StackPolicy.Proofs.Guarantees
import StackPolicy.Proofs.HandOver
import StackPolicy.Proofs.Histories
import StackPolicy.Proofs.InitBarriers
import StackPolicy.Proofs.LateCoverage
import StackPolicy.Proofs.LateInitializers
import StackPolicy.Proofs.LatePartition
import StackPolicy.Proofs.LedgerEntries
import StackPolicy.Proofs.LoadedSettings
import StackPolicy.Proofs.LocationFold
import StackPolicy.Proofs.Locks
import StackPolicy.Proofs.MergedSettings
import StackPolicy.Proofs.NearestFiles
import StackPolicy.Proofs.NestedPhases
import StackPolicy.Proofs.NewNumbers
import StackPolicy.Proofs.Obligations
import StackPolicy.Proofs.OrderIndependence
import StackPolicy.Proofs.OwnershipFold
import StackPolicy.Proofs.OwnershipSteps
import StackPolicy.Proofs.Passes
import StackPolicy.Proofs.PlannerContents
import StackPolicy.Proofs.PlannerRecords
import StackPolicy.Proofs.Planning
import StackPolicy.Proofs.PlanningSessions
import StackPolicy.Proofs.QueueOrder
import StackPolicy.Proofs.QuietSettings
import StackPolicy.Proofs.Rearrangement
import StackPolicy.Proofs.RecordedEntries
import StackPolicy.Proofs.ReorderedApps
import StackPolicy.Proofs.ReorderedPasses
import StackPolicy.Proofs.ReplayedTraces
import StackPolicy.Proofs.ReportedPriorities
import StackPolicy.Proofs.ReportedRuns
import StackPolicy.Proofs.RunOutcomes
import StackPolicy.Proofs.RunResults
import StackPolicy.Proofs.Sequences
import StackPolicy.Proofs.SharedLedgers
import StackPolicy.Proofs.SharedWithInit
import StackPolicy.Proofs.ShownLines
import StackPolicy.Proofs.SpawnBarriers
import StackPolicy.Proofs.StreamLocations
import StackPolicy.Proofs.StreamOwnerships
import StackPolicy.Proofs.TimerContents
import StackPolicy.Proofs.TimerDemands
import StackPolicy.Proofs.TimerHistory
import StackPolicy.Proofs.TimerQueue
import StackPolicy.Proofs.TraceEntries
import StackPolicy.Proofs.TransferSafety
import StackPolicy.Proofs.UniformPasses
import StackPolicy.Proofs.WrittenApps
import StackPolicy.Proofs.WrittenJson
import StackPolicy.Ratio
import StackPolicy.Report
import StackPolicy.Schema.Checked
import StackPolicy.Schema.Issue
import StackPolicy.Schema.Model
import StackPolicy.Schema.Scalar
import StackPolicy.Settings
import StackPolicy.SortedSet
import StackPolicy.Table
import StackPolicy.Table.Lemmas
import StackPolicy.Text.Digits
import StackPolicy.Text.Integer
import StackPolicy.Text.Printable
import StackPolicy.Text.Quoted
import StackPolicy.Text.Utf8
import StackPolicy.TimerQueue
import StackPolicy.Toml.Document
import StackPolicy.Toml.Number
import StackPolicy.Toml.Text
import StackPolicy.Trace
import StackPolicy.Transfer
import StackPolicy.Value
import StackPolicy.Value.Display
import StackPolicy.Value.JsonReader
import StackPolicy.Value.JsonWriter
import StackPolicy.Violation
