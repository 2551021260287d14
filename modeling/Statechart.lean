import Statechart.Action
import Statechart.Checksum
import Statechart.CommandLine.Arguments
import Statechart.CommandLine.Files
import Statechart.CommandLine.Help
import Statechart.CommandLine.Orders
import Statechart.Configuration.Basic
import Statechart.Configuration.Reading
import Statechart.Configuration.Written
import Statechart.Context.Extent
import Statechart.Context.Fault
import Statechart.Context.Layer
import Statechart.Decimal.Binary
import Statechart.Decimal.Layout
import Statechart.Decimal.Reader
import Statechart.Decimal.Shortest
import Statechart.Description.Basic
import Statechart.Description.Document
import Statechart.Description.Reading
import Statechart.Description.Written
import Statechart.Engine.Basic
import Statechart.Engine.Bus
import Statechart.Engine.Fault
import Statechart.Engine.Lifecycle
import Statechart.Engine.Party
import Statechart.Engine.Rehearsal
import Statechart.Engine.Schedule
import Statechart.Engine.Selection
import Statechart.Engine.Worklist
import Statechart.Engine.World
import Statechart.Event
import Statechart.Expression.Evaluation
import Statechart.Expression.Fault
import Statechart.Expression.Parser
import Statechart.Expression.Syntax
import Statechart.Fault
import Statechart.Graph.Basic
import Statechart.Graph.Build
import Statechart.Json.Reader
import Statechart.Json.Tree
import Statechart.Json.Writer
import Statechart.Main
import Statechart.Proofs.Context.Breakage
import Statechart.Proofs.Context.Flattening
import Statechart.Proofs.Context.Interchange
import Statechart.Proofs.Context.Isolation
import Statechart.Proofs.Context.Stack
import Statechart.Proofs.Description.Identity
import Statechart.Proofs.Engine.Actions
import Statechart.Proofs.Engine.Building
import Statechart.Proofs.Engine.Choice
import Statechart.Proofs.Engine.Decisions
import Statechart.Proofs.Engine.Emissions
import Statechart.Proofs.Engine.Entering
import Statechart.Proofs.Engine.EventData
import Statechart.Proofs.Engine.Failures
import Statechart.Proofs.Engine.Faults
import Statechart.Proofs.Engine.Launching
import Statechart.Proofs.Engine.Matching
import Statechart.Proofs.Engine.Privacy
import Statechart.Proofs.Engine.Reach
import Statechart.Proofs.Engine.Registry
import Statechart.Proofs.Engine.Resources
import Statechart.Proofs.Engine.Restart
import Statechart.Proofs.Engine.Settled
import Statechart.Proofs.Engine.Stopping
import Statechart.Proofs.Engine.TimerSchedule
import Statechart.Proofs.Engine.Timers
import Statechart.Proofs.Engine.Traffic
import Statechart.Proofs.Engine.Transition
import Statechart.Proofs.Engine.Unheeded
import Statechart.Proofs.Expression.Comparison
import Statechart.Proofs.Expression.Literals
import Statechart.Proofs.Expression.Totality
import Statechart.Proofs.Graph.Fidelity
import Statechart.Proofs.Service.Selection
import Statechart.Proofs.Storage.Corruption
import Statechart.Proofs.Storage.Recovery
import Statechart.Proofs.Storage.Reopening
import Statechart.Proofs.Storage.Scanning
import Statechart.Proofs.Value.Equality
import Statechart.Proofs.Worklist.Composition
import Statechart.Proofs.Worklist.Effects
import Statechart.Proofs.Worklist.Exhaustion
import Statechart.Proofs.Worklist.Lockstep
import Statechart.Proofs.Worklist.Protocol
import Statechart.Service.Basic
import Statechart.Service.Selection
import Statechart.Storage.Disk
import Statechart.Storage.Fault
import Statechart.Storage.Store
import Statechart.Storage.StoreFile
import Statechart.Table
import Statechart.Table.Lemmas
import Statechart.Text.Alphabetic
import Statechart.Text.Hidden
import Statechart.Text.Numeric
import Statechart.Text.Quoted
import Statechart.Text.Ranges
import Statechart.Value.Basic
import Statechart.Value.Decidable
import Statechart.Value.Equality
import Statechart.Value.Shape
import Statechart.Yaml.Glyph
import Statechart.Yaml.Layout
import Statechart.Yaml.Node
import Statechart.Yaml.Plain
import Statechart.Yaml.Reader
import Statechart.Yaml.Scalar
import Statechart.Yaml.Token
import Statechart.Yaml.Written
