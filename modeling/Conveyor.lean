import Conveyor.Config
import Conveyor.Decimal.Binary
import Conveyor.Decimal.Layout
import Conveyor.Decimal.Read
import Conveyor.Decimal.Rounded
import Conveyor.Decimal.Shortest
import Conveyor.Engine.Basic
import Conveyor.Engine.Delivery
import Conveyor.Engine.Hook
import Conveyor.Engine.Run
import Conveyor.Filter.Basic
import Conveyor.Filter.Operator
import Conveyor.Json.Decode
import Conveyor.Json.Equal
import Conveyor.Json.Parser
import Conveyor.Json.Printer
import Conveyor.Json.Text
import Conveyor.Json.Value
import Conveyor.Lua.Exchange
import Conveyor.Lua.Format
import Conveyor.Lua.Heap
import Conveyor.Lua.Lexeme
import Conveyor.Lua.Library
import Conveyor.Lua.Library.Base
import Conveyor.Lua.Library.Codes
import Conveyor.Lua.Library.Numbers
import Conveyor.Lua.Library.Tables
import Conveyor.Lua.Library.Texts
import Conveyor.Lua.Machine
import Conveyor.Lua.Native
import Conveyor.Lua.Numeral
import Conveyor.Lua.Operate
import Conveyor.Lua.Parser
import Conveyor.Lua.Pattern
import Conveyor.Lua.Step
import Conveyor.Lua.Table
import Conveyor.Lua.Tree
import Conveyor.Lua.Value
import Conveyor.Named
import Conveyor.NodeType.Basic
import Conveyor.NodeType.Builtin
import Conveyor.NodeType.Code
import Conveyor.NodeType.Conditions
import Conveyor.NodeType.Fields
import Conveyor.NodeType.Flow
import Conveyor.NodeType.Merge
import Conveyor.NodeType.Registry
import Conveyor.Parameter.Display
import Conveyor.Parameter.Extract
import Conveyor.Parameter.Path
import Conveyor.Parameter.Resolver
import Conveyor.Parameter.Schema
import Conveyor.Regex.Match
import Conveyor.Regex.Parser
import Conveyor.Regex.Tree
import Conveyor.Run.Basic
import Conveyor.Run.Record
import Conveyor.Run.State
import Conveyor.Run.Task
import Conveyor.Run.View
import Conveyor.Script.Error
import Conveyor.Script.Helper
import Conveyor.Script.Location
import Conveyor.Script.Output
import Conveyor.Script.Prelude
import Conveyor.Script.Rewrite
import Conveyor.Script.Sandbox
import Conveyor.Script.Session
import Conveyor.Service.Basic
import Conveyor.Service.Call
import Conveyor.Service.Error
import Conveyor.Service.Job
import Conveyor.Service.Traffic
import Conveyor.Template.Chunk
import Conveyor.Template.Evaluate
import Conveyor.Text.Blank
import Conveyor.Text.CaseTables
import Conveyor.Text.Classes
import Conveyor.Text.LowerCase
import Conveyor.Text.Search
import Conveyor.Text.Utf8
import Conveyor.Text.WordTables
import Conveyor.Time.Calendar
import Conveyor.Time.Instant
import Conveyor.Time.Reader
import Conveyor.Workflow.Basic
import Conveyor.Workflow.Connection
import Conveyor.Workflow.Graph
import Conveyor.Workflow.Item
import Conveyor.Workflow.Store
import Conveyor.Proofs.Engine.Delivery
import Conveyor.Proofs.Engine.Turn
import Conveyor.Proofs.Engine.History
import Conveyor.Proofs.Engine.Provenance
import Conveyor.Proofs.Engine.Once
import Conveyor.Proofs.Engine.Progress
import Conveyor.Proofs.Engine.Pause
import Conveyor.Proofs.Engine.Dataflow
import Conveyor.Proofs.Engine.Layout
import Conveyor.Proofs.Engine.Onward
import Conveyor.Proofs.Engine.Visit
import Conveyor.Proofs.Engine.Loop
import Conveyor.Proofs.Engine.Lockstep
import Conveyor.Proofs.Workflow.Arrangement
import Conveyor.Proofs.Engine.Reproducible
import Conveyor.Proofs.Run.Without
import Conveyor.Proofs.Engine.Disabled
import Conveyor.Proofs.Engine.Renewal
import Conveyor.Proofs.Engine.Rerun
import Conveyor.Proofs.Engine.Trail
import Conveyor.Proofs.Engine.Outcome
import Conveyor.Proofs.Engine.Chronicle
import Conveyor.Proofs.Engine.Cancellation
import Conveyor.Proofs.Service.Table
import Conveyor.Proofs.Service.Reach
import Conveyor.Proofs.Service.Records
import Conveyor.Proofs.Service.Ownership
import Conveyor.Proofs.Service.Orphan
import Conveyor.Proofs.Service.Resumption
import Conveyor.Proofs.Service.Settlement
import Conveyor.Proofs.Service.Retention
import Conveyor.Proofs.Parameter.Selector
import Conveyor.Proofs.Parameter.Visibility
import Conveyor.Proofs.Template.Source
import Conveyor.Proofs.Script.Literals
import Conveyor.Proofs.Decimal.Whole
import Conveyor.Proofs.Json.Equality
import Conveyor.Proofs.Lua.Table
import Conveyor.Proofs.Lua.Exchange
import Conveyor.Proofs.Script.Returned
import Conveyor.Proofs.Json.Record
import Conveyor.Proofs.Decimal.Bits
import Conveyor.Proofs.Workflow.Written
import Conveyor.Proofs.Parameter.Written
import Conveyor.Proofs.Run.Written
import Conveyor.Proofs.Engine.Slots
import Conveyor.Proofs.Engine.Rebuilt
import Conveyor.Proofs.Engine.Limit
import Conveyor.Proofs.Engine.Routing
import Conveyor.Proofs.Engine.Total
import Conveyor.Proofs.Decimal.Natural
import Conveyor.Proofs.Decimal.Nearest
import Conveyor.Proofs.Parameter.Grammar
import Conveyor.Proofs.Workflow.Views
import Conveyor.Proofs.Engine.Observed
import Conveyor.Proofs.Parameter.Lookup
import Conveyor.Proofs.Parameter.Notation
import Conveyor.Proofs.Filter.Combination
import Conveyor.Proofs.Filter.Operation
import Conveyor.Proofs.Json.Equivalence
import Conveyor.Proofs.Filter.Integers
import Conveyor.Proofs.NodeType.Conditions
import Conveyor.Proofs.Lua.Order
import Conveyor.Proofs.Named
import Conveyor.Proofs.Template.Pieces
import Conveyor.Proofs.Template.Literal
import Conveyor.Proofs.Template.Resolution
import Conveyor.Proofs.NodeType.Assignment
import Conveyor.Proofs.Regex.Search
import Conveyor.Proofs.Regex.Plain
import Conveyor.Proofs.Filter.Pattern
import Conveyor.Proofs.Script.Positions
import Conveyor.Proofs.Lua.Lines
import Conveyor.Proofs.Script.Lines
import Conveyor.Proofs.Lua.Reading
import Conveyor.Proofs.Lua.Functions
import Conveyor.Proofs.Lua.Failures
import Conveyor.Proofs.Script.Told
import Conveyor.Proofs.Script.ErrorLines
