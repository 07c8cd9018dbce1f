import Retrace.Handle
import Retrace.OrderedMap
import Retrace.PinSet
import Retrace.Sentinel
import Retrace.LogId
import Retrace.Context
import Retrace.Room
import Retrace.Error
import Retrace.Order.ShellSort
import Retrace.Order.NameIndex
import Retrace.Config
import Retrace.Image
import Retrace.Arena
import Retrace.CorePaths.Walk
import Retrace.CorePaths
import Retrace.CorePaths.Maps
import Retrace.Journal.Nesting
import Retrace.Journal
import Retrace.Registry.Basic
import Retrace.Registry.Identity
import Retrace.Registry.Lifecycle
import Retrace.Registry.Snapshot
import Retrace.Host
import Retrace.Host.Memory
import Retrace.Text.Hex
import Retrace.Text.CodeRange
import Retrace.Text.Invisible
import Retrace.Text.GraphemeExtend
import Retrace.Text.DefaultIgnorable
import Retrace.Text.Shown
import Retrace.Json.Token
import Retrace.Json.Value
import Retrace.Json.Form
import Retrace.Json.Identity
import Retrace.Json.Arena
import Retrace.Json.Journal
import Retrace.Json.Config
import Retrace.Toml.Quoted
import Retrace.Toml.Scalar
import Retrace.Toml.Table
import Retrace.Toml.Token
import Retrace.Toml.Document
import Retrace.Toml.Config
import Retrace.Inspector.Invocation
import Retrace.Inspector.Files
import Retrace.Inspector
import Retrace.Main
import Retrace.Proofs.OrderedMap
import Retrace.Proofs.PinSet.History
import Retrace.Proofs.PinSet.Words
import Retrace.Proofs.SentinelIds
import Retrace.Proofs.Registry.Run
import Retrace.Proofs.Journal.Run
import Retrace.Proofs.Journal.Nesting
import Retrace.Proofs.Journal.CodeSteps
import Retrace.Proofs.Journal.History
import Retrace.Proofs.Journal.TopLevelCode
import Retrace.Proofs.Journal.LexicalChains
import Retrace.Proofs.Journal.SteadyCode
import Retrace.Proofs.Journal.LoadOrder
import Retrace.Proofs.Journal.SearchLength
import Retrace.Proofs.Journal.SettledCode
import Retrace.Proofs.Journal.CoveredCode
import Retrace.Proofs.Journal.KnownParents
import Retrace.Proofs.Journal.LastingParents
import Retrace.Proofs.Journal.TrackedCode
import Retrace.Proofs.Journal.AsyncWrites
import Retrace.Proofs.Journal.ClosestWrite
import Retrace.Proofs.Registry.Effects
import Retrace.Proofs.Registry.Failures
import Retrace.Proofs.Registry.IdSteps
import Retrace.Proofs.Registry.IdMaps
import Retrace.Proofs.Registry.History
import Retrace.Proofs.Registry.FreshIds
import Retrace.Proofs.Registry.PinnedIds
import Retrace.Proofs.Registry.UniqueIds
import Retrace.Proofs.Registry.LocalRoots
import Retrace.Proofs.Registry.DebugSteps
import Retrace.Proofs.Registry.Mirror
import Retrace.Proofs.Registry.ContextNumbers
import Retrace.Proofs.Registry.Replay
import Retrace.Proofs.Registry.ContextSteps
import Retrace.Proofs.Registry.WrapperSteps
import Retrace.Proofs.Registry.ContextsInOrder
import Retrace.Proofs.Registry.FreshContexts
import Retrace.Proofs.Registry.Wrappers
import Retrace.Proofs.Registry.Bookkeeping
import Retrace.Proofs.Registry.Signals
import Retrace.Proofs.Registry.PinSteps
import Retrace.Proofs.Registry.NamedRoots
import Retrace.Proofs.Registry.SnapshotViews
import Retrace.Proofs.Registry.MarkedObjects
import Retrace.Proofs.Registry.Retirement
import Retrace.Proofs.Registry.DeferredRetirement
import Retrace.Proofs.Order.NameIndex
import Retrace.Proofs.Order.Bytes
import Retrace.Proofs.Order.SortLoops
import Retrace.Proofs.Order.SearchLoop
import Retrace.Proofs.CorePaths.Graph
import Retrace.Proofs.CorePaths.Offer
import Retrace.Proofs.CorePaths.Reach
import Retrace.Proofs.CorePaths.Resolution
import Retrace.Proofs.CorePaths.Inverse
import Retrace.Proofs.CorePaths.Maps
import Retrace.Proofs.CorePaths.Canonical
import Retrace.Proofs.CorePaths.Ends
import Retrace.Proofs.CorePaths.PlainNames
import Retrace.Proofs.CorePaths.Shape
import Retrace.Proofs.CorePaths.SortedPaths
import Retrace.Proofs.Arena.Valid
import Retrace.Proofs.Arena.SafeWalks
import Retrace.Proofs.Json.Token
import Retrace.Proofs.Json.Value
import Retrace.Proofs.Json.Form
import Retrace.Proofs.Json.Arena
import Retrace.Proofs.Arena.Builders
import Retrace.Proofs.Arena.Construction
import Retrace.Proofs.Toml.Quoted
import Retrace.Proofs.Toml.Line
import Retrace.Proofs.Toml.Config
import Retrace.Proofs.Inspector.Arguments
import Retrace.Proofs.Inspector.Agreement
