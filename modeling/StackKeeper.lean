import StackKeeper.Api.Reply
import StackKeeper.Api.Request
import StackKeeper.Cli.Arguments
import StackKeeper.Cli.Commands
import StackKeeper.Cli.Output
import StackKeeper.Cli.Session
import StackKeeper.Config.EnvFile
import StackKeeper.Config.Environment
import StackKeeper.Config.Reader
import StackKeeper.Config.Search
import StackKeeper.Config.SocketAddress
import StackKeeper.Config.Validation
import StackKeeper.Control.Controller
import StackKeeper.Control.WorkQueue
import StackKeeper.Error
import StackKeeper.Files.Path
import StackKeeper.Files.Shared
import StackKeeper.Files.Tree
import StackKeeper.Fingerprint
import StackKeeper.Follow.Handoff
import StackKeeper.Follow.Registry
import StackKeeper.Follow.Tick
import StackKeeper.Follow.Watch
import StackKeeper.Instant.Basic
import StackKeeper.Instant.Printer
import StackKeeper.Instant.Reader
import StackKeeper.Json.Basic
import StackKeeper.Json.Printer
import StackKeeper.Json.Reader
import StackKeeper.Main
import StackKeeper.Metrics.Basic
import StackKeeper.Metrics.Exposition
import StackKeeper.Pass
import StackKeeper.Program.Basic
import StackKeeper.Program.Call
import StackKeeper.Proofs.ApplyRace
import StackKeeper.Proofs.BrokenSteps
import StackKeeper.Proofs.Convergence
import StackKeeper.Proofs.Course
import StackKeeper.Proofs.Declaration
import StackKeeper.Proofs.DeletionRequest
import StackKeeper.Proofs.DocumentText
import StackKeeper.Proofs.DryRun
import StackKeeper.Proofs.FailedWrites
import StackKeeper.Proofs.FeedText
import StackKeeper.Proofs.FileFrame
import StackKeeper.Proofs.FileSteps
import StackKeeper.Proofs.FollowCount
import StackKeeper.Proofs.HandoffOrder
import StackKeeper.Proofs.InstantText
import StackKeeper.Proofs.Interleaving
import StackKeeper.Proofs.JsonText
import StackKeeper.Proofs.Ledger
import StackKeeper.Proofs.Lifecycle
import StackKeeper.Proofs.ListedDocuments
import StackKeeper.Proofs.LocatorText
import StackKeeper.Proofs.Log
import StackKeeper.Proofs.LostCreate
import StackKeeper.Proofs.MergeMemory
import StackKeeper.Proofs.MutationGuard
import StackKeeper.Proofs.NearestConfiguration
import StackKeeper.Proofs.Neighbours
import StackKeeper.Proofs.Observation
import StackKeeper.Proofs.Orphans
import StackKeeper.Proofs.Ownership
import StackKeeper.Proofs.Party
import StackKeeper.Proofs.PassEnding
import StackKeeper.Proofs.PassFootprint
import StackKeeper.Proofs.PassLog
import StackKeeper.Proofs.PassWrites
import StackKeeper.Proofs.QueueOrder
import StackKeeper.Proofs.Reachable
import StackKeeper.Proofs.Relay
import StackKeeper.Proofs.Removal
import StackKeeper.Proofs.RequestForm
import StackKeeper.Proofs.Retries
import StackKeeper.Proofs.Scene
import StackKeeper.Proofs.SecondPass
import StackKeeper.Proofs.Serving
import StackKeeper.Proofs.SharedDocument
import StackKeeper.Proofs.Shortcut
import StackKeeper.Proofs.StageLog
import StackKeeper.Proofs.Standing
import StackKeeper.Proofs.StatusRace
import StackKeeper.Proofs.StatusWrites
import StackKeeper.Proofs.StoreAccess
import StackKeeper.Proofs.StoreAnswers
import StackKeeper.Proofs.StoreFrame
import StackKeeper.Proofs.StoredDocument
import StackKeeper.Proofs.Succession
import StackKeeper.Proofs.TickLog
import StackKeeper.Proofs.TickOrder
import StackKeeper.Proofs.TreeShape
import StackKeeper.Proofs.UpdateReplies
import StackKeeper.Proofs.Upkeep
import StackKeeper.Proofs.ValidationRules
import StackKeeper.Proofs.Wakeups
import StackKeeper.Record
import StackKeeper.Refresh
import StackKeeper.Rehearsal.Cloud
import StackKeeper.Rehearsal.Fault
import StackKeeper.Rehearsal.Offline
import StackKeeper.Rehearsal.Run
import StackKeeper.Rehearsal.World
import StackKeeper.Resource.Basic
import StackKeeper.Resource.Document
import StackKeeper.Resource.Locator
import StackKeeper.Resource.Manifest
import StackKeeper.Resource.Merge
import StackKeeper.Sha256
import StackKeeper.Stack.Inputs
import StackKeeper.Stack.Lifecycle
import StackKeeper.Stack.Remote
import StackKeeper.Store.Feed
import StackKeeper.Store.Local
import StackKeeper.Store.Request
import StackKeeper.Store.Watcher
import StackKeeper.Text.Blank
import StackKeeper.Text.Decimal
import StackKeeper.Text.Double
import StackKeeper.Text.Parts
import StackKeeper.Text.Table
import StackKeeper.Text.Width
import StackKeeper.TextMap
import StackKeeper.Yaml.Anchor
import StackKeeper.Yaml.Lexer
import StackKeeper.Yaml.Node.Basic
import StackKeeper.Yaml.Node.Reader
import StackKeeper.Yaml.Property
import StackKeeper.Yaml.Scalar.Block
import StackKeeper.Yaml.Scalar.Gap
import StackKeeper.Yaml.Scalar.Plain
import StackKeeper.Yaml.Scalar.Quoted
import StackKeeper.Yaml.Spot
import StackKeeper.Yaml.Token
import StackKeeper.Yaml.Tree
