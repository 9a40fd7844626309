import Stagecraft.Action.Builtin
import Stagecraft.Action.Context
import Stagecraft.Action.Registry
import Stagecraft.Adapter
import Stagecraft.Binding
import Stagecraft.CommandLine
import Stagecraft.Decimal.Basic
import Stagecraft.Decimal.Layout
import Stagecraft.Director
import Stagecraft.Document.Fault
import Stagecraft.Document.Inspection
import Stagecraft.Document.Lexer
import Stagecraft.Document.Node
import Stagecraft.Document.Number
import Stagecraft.Document.Numeral
import Stagecraft.Document.Printer
import Stagecraft.Document.Reading
import Stagecraft.Document.Schema.Basic
import Stagecraft.Document.Schema.Reader
import Stagecraft.Document.Schema.Writer
import Stagecraft.Document.Token
import Stagecraft.Document.Value
import Stagecraft.Engine
import Stagecraft.Error
import Stagecraft.Error.Report
import Stagecraft.Event
import Stagecraft.Handler
import Stagecraft.Main
import Stagecraft.Outcome
import Stagecraft.Proofs.Action.Builtin
import Stagecraft.Proofs.Action.Effect
import Stagecraft.Proofs.Action.EventCount
import Stagecraft.Proofs.Action.Numbering
import Stagecraft.Proofs.Adapter.Scripted
import Stagecraft.Proofs.Decimal.Digits
import Stagecraft.Proofs.Decimal.Double
import Stagecraft.Proofs.Decimal.Evaluation
import Stagecraft.Proofs.Decimal.Nearest
import Stagecraft.Proofs.Decimal.Operations
import Stagecraft.Proofs.Decimal.Rounding
import Stagecraft.Proofs.Decimal.Scientific
import Stagecraft.Proofs.Decimal.Shortest
import Stagecraft.Proofs.Decimal.Thousandths
import Stagecraft.Proofs.Decimal.Unpacked
import Stagecraft.Proofs.Director.BeatFold
import Stagecraft.Proofs.Director.BuiltinBeat
import Stagecraft.Proofs.Director.CompletedPrefix
import Stagecraft.Proofs.Director.Curtain
import Stagecraft.Proofs.Director.Durations
import Stagecraft.Proofs.Director.EventTally
import Stagecraft.Proofs.Director.Fallback
import Stagecraft.Proofs.Director.Membership
import Stagecraft.Proofs.Director.Pruned
import Stagecraft.Proofs.Director.Recast
import Stagecraft.Proofs.Director.Record
import Stagecraft.Proofs.Director.Run
import Stagecraft.Proofs.Director.SinglePass
import Stagecraft.Proofs.Director.StaticCheck
import Stagecraft.Proofs.Director.Timesheet
import Stagecraft.Proofs.Director.Transcript
import Stagecraft.Proofs.Director.Untimed
import Stagecraft.Proofs.Document.Decoding
import Stagecraft.Proofs.Document.Kinds
import Stagecraft.Proofs.Document.Lawful
import Stagecraft.Proofs.Document.Mapping
import Stagecraft.Proofs.Document.Members
import Stagecraft.Proofs.Document.Nesting
import Stagecraft.Proofs.Document.Numeral
import Stagecraft.Proofs.Document.Places
import Stagecraft.Proofs.Document.Printing
import Stagecraft.Proofs.Document.Reread
import Stagecraft.Proofs.Document.Respelling
import Stagecraft.Proofs.Document.RoundTrip
import Stagecraft.Proofs.Document.Scanning
import Stagecraft.Proofs.Document.Spelled
import Stagecraft.Proofs.Engine.Blame
import Stagecraft.Proofs.Engine.Build
import Stagecraft.Proofs.Engine.Buildable
import Stagecraft.Proofs.Engine.Membership
import Stagecraft.Proofs.Handler
import Stagecraft.Proofs.Playback.Account
import Stagecraft.Proofs.Playback.Animation
import Stagecraft.Proofs.Playback.Answer
import Stagecraft.Proofs.Playback.Isolation
import Stagecraft.Proofs.Playback.Pruned
import Stagecraft.Proofs.Playback.Trial
import Stagecraft.Proofs.Registration.FirstCome
import Stagecraft.Proofs.Registration.Requests
import Stagecraft.Proofs.Rendering.Mode
import Stagecraft.Proofs.Rendering.Steps
import Stagecraft.Proofs.Routing.Declaration
import Stagecraft.Proofs.Routing.Spelling
import Stagecraft.Proofs.Routing.StrictCheck
import Stagecraft.Proofs.Routing.Target
import Stagecraft.Proofs.Stage.Clock
import Stagecraft.Proofs.Stage.Log
import Stagecraft.Proofs.Tempo.Positive
import Stagecraft.Proofs.Tempo.Resolution
import Stagecraft.Proofs.Tempo.Validation
import Stagecraft.Proofs.Text.Bytes
import Stagecraft.Proofs.Tracker.Csv
import Stagecraft.Proofs.Tracker.Json
import Stagecraft.Proofs.Widget.Bracketing
import Stagecraft.Proofs.Widget.Decision
import Stagecraft.Proofs.Widget.Evolution
import Stagecraft.Proofs.Widget.Fifo
import Stagecraft.Proofs.Widget.Making
import Stagecraft.Proofs.Widget.Marking
import Stagecraft.Proofs.Widget.Response
import Stagecraft.Proofs.Widget.Session
import Stagecraft.Proofs.Widget.Snapshot
import Stagecraft.Rendering
import Stagecraft.Router
import Stagecraft.Routing
import Stagecraft.RunState
import Stagecraft.Settings
import Stagecraft.Stage.Basic
import Stagecraft.Stage.Clock
import Stagecraft.Stage.Rehearsal
import Stagecraft.Storyboard
import Stagecraft.Table
import Stagecraft.Table.Lemmas
import Stagecraft.Tempo
import Stagecraft.Text.Quoted
import Stagecraft.Text.Visible
import Stagecraft.Timing
import Stagecraft.Tracker
import Stagecraft.Widget.Basic
import Stagecraft.Widget.Counter
import Stagecraft.Widget.Factory
import Stagecraft.Widget.Grid
import Stagecraft.Widget.Queue
import Stagecraft.Widget.Stack
import Stagecraft.Widget.Stock
