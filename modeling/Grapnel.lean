import Grapnel.Delivery.Channel
import Grapnel.Delivery.Config
import Grapnel.Delivery.Post
import Grapnel.Document.Basic
import Grapnel.Document.Flags
import Grapnel.Document.Memory
import Grapnel.Document.Process
import Grapnel.Document.Settings
import Grapnel.FileTree.Basic
import Grapnel.FileTree.Content
import Grapnel.FileTree.Fault
import Grapnel.FileTree.Layout
import Grapnel.Guest.Builtin
import Grapnel.Guest.Chunk
import Grapnel.Guest.Code
import Grapnel.Guest.Compile
import Grapnel.Guest.Formatting
import Grapnel.Guest.Heap
import Grapnel.Guest.Matching
import Grapnel.Guest.Numeral
import Grapnel.Guest.Operation
import Grapnel.Guest.Parser
import Grapnel.Guest.Reader
import Grapnel.Guest.Scope
import Grapnel.Guest.Token
import Grapnel.Guest.Tree
import Grapnel.Guest.Value
import Grapnel.Injector.Basic
import Grapnel.Injector.State
import Grapnel.Injector.Target
import Grapnel.Instances
import Grapnel.Machine.Action
import Grapnel.Machine.Coroutine
import Grapnel.Machine.HostAction
import Grapnel.Machine.Library.Base
import Grapnel.Machine.Library.Chunks
import Grapnel.Machine.Library.Clock
import Grapnel.Machine.Library.Closures
import Grapnel.Machine.Library.Codepoints
import Grapnel.Machine.Library.Files
import Grapnel.Machine.Library.Host
import Grapnel.Machine.Library.List
import Grapnel.Machine.Library.Math
import Grapnel.Machine.Library.Signals
import Grapnel.Machine.Library.Tasks
import Grapnel.Machine.Library.Text
import Grapnel.Machine.Start
import Grapnel.Machine.State
import Grapnel.Machine.Step
import Grapnel.Memory.Access
import Grapnel.Memory.Address
import Grapnel.Memory.Basic
import Grapnel.Memory.Driver
import Grapnel.Memory.Fault
import Grapnel.Memory.Hexdump
import Grapnel.Memory.Pattern
import Grapnel.Memory.Region
import Grapnel.Memory.Scan
import Grapnel.Memory.Segments
import Grapnel.Number.Decimal
import Grapnel.Number.Double
import Grapnel.Number.Hexadecimal
import Grapnel.Number.LittleEndian
import Grapnel.Orchestrator.Basic
import Grapnel.Orchestrator.Ensemble
import Grapnel.Patch.Architecture
import Grapnel.Patch.Arena
import Grapnel.Patch.CodeSpace
import Grapnel.Patch.Interceptor
import Grapnel.Process.Basic
import Grapnel.Process.Fault
import Grapnel.Process.Locator
import Grapnel.Process.Maps
import Grapnel.Process.Record
import Grapnel.Process.Source
import Grapnel.Process.Table
import Grapnel.Procfs.Driver
import Grapnel.Procfs.Source
import Grapnel.Script.Closures
import Grapnel.Script.Config
import Grapnel.Script.Engine
import Grapnel.Script.Failure
import Grapnel.Script.Prelude
import Grapnel.Script.SourceTag
import Grapnel.Script.Thread
import Grapnel.Signal.Bus
import Grapnel.Signal.Program
import Grapnel.Task.Program
import Grapnel.Task.Scheduler
import Grapnel.Text.Blank
import Grapnel.Text.Search
import Grapnel.Text.Utf8
import Grapnel.Workspace.Basic
import Grapnel.Workspace.Fault
import Grapnel.Proofs.Memory.PatternSearch
import Grapnel.Proofs.Memory.WindowedScan
import Grapnel.Proofs.Memory.Overlay
import Grapnel.Proofs.Task.Requests
import Grapnel.Proofs.Task.History
import Grapnel.Proofs.Task.Trace
import Grapnel.Proofs.Task.Tick
import Grapnel.Proofs.Task.Cancellation
import Grapnel.Proofs.FileTree.Edit
import Grapnel.Proofs.FileTree.Walk
import Grapnel.Proofs.FileTree.Canonical
import Grapnel.Proofs.FileTree.Links
import Grapnel.Proofs.FileTree.PathText
import Grapnel.Proofs.FileTree.Directories
import Grapnel.Proofs.FileTree.Change
import Grapnel.Proofs.FileTree.Growth
import Grapnel.Proofs.Workspace.Operation
import Grapnel.Proofs.Workspace.Resolution
import Grapnel.Proofs.Workspace.Confinement
import Grapnel.Proofs.Workspace.Stability
import Grapnel.Proofs.Workspace.Content
import Grapnel.Proofs.Signal.Change
import Grapnel.Proofs.Signal.Firing
import Grapnel.Proofs.Memory.Completion
import Grapnel.Proofs.Memory.Freshness
import Grapnel.Proofs.Script.HookTable
import Grapnel.Proofs.Injector.Location
import Grapnel.Proofs.Injector.Consistency
import Grapnel.Proofs.Patch.Page
import Grapnel.Proofs.Patch.View
import Grapnel.Proofs.Patch.ArenaView
import Grapnel.Proofs.Patch.Call
import Grapnel.Proofs.Patch.Course
import Grapnel.Proofs.Patch.Teardown
import Grapnel.Proofs.Patch.Integrity
import Grapnel.Proofs.Memory.Batch
import Grapnel.Proofs.Orchestrator.Overlap
import Grapnel.Proofs.Process.Descent
import Grapnel.Proofs.Process.Discovery
import Grapnel.Proofs.Process.Nearness
import Grapnel.Proofs.Process.Ascent
import Grapnel.Proofs.Injector.Transitions
import Grapnel.Proofs.Injector.Notice
import Grapnel.Proofs.Orchestrator.Queue
import Grapnel.Proofs.Traversal
import Grapnel.Proofs.Memory.Place
import Grapnel.Proofs.Memory.EarlyExit
import Grapnel.Proofs.Memory.Footprint
import Grapnel.Proofs.Memory.PatternText
import Grapnel.Proofs.Injector.Survey
import Grapnel.Proofs.Text.Lines
import Grapnel.Proofs.Number.Reading
import Grapnel.Proofs.Memory.PatternNotation
import Grapnel.Proofs.Text.Encoding
import Grapnel.Proofs.Process.MappingTable
import Grapnel.Proofs.Process.Record
import Grapnel.Proofs.Procfs.Listing
import Grapnel.Proofs.Memory.DumpColumns
import Grapnel.Proofs.Memory.PointerChain
import Grapnel.Proofs.Memory.TextReading
import Grapnel.Proofs.Memory.DumpReading
import Grapnel.Proofs.Signal.Lasting
import Grapnel.Proofs.Task.Lifecycle
import Grapnel.Proofs.Script.Report
import Grapnel.Proofs.Script.SourceName
import Grapnel.Proofs.Guest.ChunkName
import Grapnel.Proofs.Machine.Stepping
import Grapnel.Proofs.Script.PreludeCode
import Grapnel.Proofs.Script.ChunkTag
import Grapnel.Proofs.Script.HardenedLoad
import Grapnel.Proofs.Script.Provenance
import Grapnel.Proofs.Patch.Coverage
import Grapnel.Proofs.Script.Copying
import Grapnel.Proofs.Script.Rebinding
import Grapnel.Proofs.Script.Captures
