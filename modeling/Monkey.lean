import Monkey.Command
import Monkey.Command.Transcript
import Monkey.Configuration
import Monkey.Diagnostic
import Monkey.Diagnostic.Report
import Monkey.Engine
import Monkey.Environment
import Monkey.Evaluation
import Monkey.Evaluation.Node
import Monkey.Files
import Monkey.Host
import Monkey.Json
import Monkey.Json.Library
import Monkey.Json.Number
import Monkey.Kind
import Monkey.Libraries
import Monkey.Main
import Monkey.Path
import Monkey.Proofs.Command.Laws
import Monkey.Proofs.Command.Running
import Monkey.Proofs.Command.Sessions
import Monkey.Proofs.Configuration.Discovery
import Monkey.Proofs.Configuration.Layers
import Monkey.Proofs.Configuration.Precedence
import Monkey.Proofs.Configuration.Sources
import Monkey.Proofs.Diagnostic.Encoding
import Monkey.Proofs.Diagnostic.Lines
import Monkey.Proofs.Diagnostic.Location
import Monkey.Proofs.Diagnostic.Report
import Monkey.Proofs.Evaluation.Agreement
import Monkey.Proofs.Evaluation.Alone
import Monkey.Proofs.Evaluation.Arithmetic
import Monkey.Proofs.Evaluation.Coupling
import Monkey.Proofs.Evaluation.Course
import Monkey.Proofs.Evaluation.Data
import Monkey.Proofs.Evaluation.Depth
import Monkey.Proofs.Evaluation.Errors
import Monkey.Proofs.Evaluation.Frame
import Monkey.Proofs.Evaluation.Isolation
import Monkey.Proofs.Evaluation.Kind
import Monkey.Proofs.Evaluation.Layout
import Monkey.Proofs.Evaluation.Leaving
import Monkey.Proofs.Evaluation.Lexical
import Monkey.Proofs.Evaluation.Limit
import Monkey.Proofs.Evaluation.Moments
import Monkey.Proofs.Evaluation.Quiet
import Monkey.Proofs.Evaluation.Renaming
import Monkey.Proofs.Evaluation.Root
import Monkey.Proofs.Evaluation.Shadow
import Monkey.Proofs.Evaluation.Shape
import Monkey.Proofs.Evaluation.Task
import Monkey.Proofs.Grammar.Ambiguous
import Monkey.Proofs.Grammar.Reshaping
import Monkey.Proofs.Grammar.Spans
import Monkey.Proofs.Grammar.Spelled
import Monkey.Proofs.Grammar.Stratified
import Monkey.Proofs.Host.Forest
import Monkey.Proofs.Host.Moves
import Monkey.Proofs.Host.Sharing
import Monkey.Proofs.Json.Laws
import Monkey.Proofs.Json.Nodes
import Monkey.Proofs.Json.Presentation
import Monkey.Proofs.Json.Schema
import Monkey.Proofs.Json.Texts
import Monkey.Proofs.Json.Trailing
import Monkey.Proofs.Parser.Acceptance
import Monkey.Proofs.Parser.Completeness
import Monkey.Proofs.Parser.Context
import Monkey.Proofs.Parser.Exact
import Monkey.Proofs.Parser.Following
import Monkey.Proofs.Parser.Nested
import Monkey.Proofs.Parser.Nesting
import Monkey.Proofs.Parser.Pieces
import Monkey.Proofs.Parser.Places
import Monkey.Proofs.Parser.Plain
import Monkey.Proofs.Parser.Readers
import Monkey.Proofs.Parser.Recovery
import Monkey.Proofs.Parser.RoundTrip
import Monkey.Proofs.Parser.Soundness
import Monkey.Proofs.Parser.Totality
import Monkey.Proofs.Parser.Walk
import Monkey.Proofs.Parser.Wall
import Monkey.Proofs.Session.Traces
import Monkey.Proofs.Standard
import Monkey.Proofs.Standard.CommandLine
import Monkey.Proofs.Standard.Json
import Monkey.Proofs.Standard.Json.Codecs
import Monkey.Proofs.Standard.Json.Parts
import Monkey.Proofs.Standard.Json.Reading
import Monkey.Proofs.Standard.Json.Scalars
import Monkey.Proofs.Standard.Json.Soundness
import Monkey.Proofs.Standard.Json.Writing
import Monkey.Proofs.Store.Access
import Monkey.Proofs.Store.Chain
import Monkey.Proofs.Store.Forest
import Monkey.Proofs.Store.Growth
import Monkey.Proofs.Store.Likeness
import Monkey.Proofs.Store.Reach
import Monkey.Proofs.Store.Renaming
import Monkey.Proofs.Store.Shape
import Monkey.Proofs.Syntax.Demand
import Monkey.Proofs.Syntax.Documents
import Monkey.Proofs.Syntax.Nodes
import Monkey.Proofs.Syntax.Rereading
import Monkey.Proofs.Syntax.Shape
import Monkey.Proofs.Syntax.Spelling
import Monkey.Proofs.Syntax.Tolerance
import Monkey.Proofs.Syntax.Uses
import Monkey.Proofs.Text.Numeral
import Monkey.Proofs.Text.Stops
import Monkey.Proofs.Token.Coverage
import Monkey.Proofs.Token.Layout
import Monkey.Proofs.Token.Printing
import Monkey.Proofs.Token.Scanned
import Monkey.Proofs.Token.Scanning
import Monkey.Session
import Monkey.Session.Console
import Monkey.Session.Steps
import Monkey.Settings
import Monkey.Settings.Read
import Monkey.Span
import Monkey.Standard
import Monkey.Standard.CommandLine
import Monkey.Standard.Double
import Monkey.Standard.Editor
import Monkey.Standard.Editor.Backspace
import Monkey.Standard.Editor.Cluster
import Monkey.Standard.Editor.Ranges
import Monkey.Standard.Home
import Monkey.Standard.Json
import Monkey.Standard.Json.Decoding
import Monkey.Standard.Json.Encoding
import Monkey.Standard.Json.Parts
import Monkey.Standard.Json.Read
import Monkey.Standard.Json.Write
import Monkey.Standard.Settings
import Monkey.Standard.Toml
import Monkey.Standard.Toml.Read
import Monkey.Standard.Toml.Scalar
import Monkey.Standard.Toml.Table
import Monkey.Standard.Wording
import Monkey.Store
import Monkey.Syntax
import Monkey.Syntax.Parser
import Monkey.Syntax.Precedence
import Monkey.Syntax.Render
import Monkey.Syntax.Source
import Monkey.Text.Blank
import Monkey.Text.Column
import Monkey.Text.Fields
import Monkey.Text.Numeral
import Monkey.Text.Quoted
import Monkey.Text.Taken
import Monkey.Token
import Monkey.Token.Cursor
import Monkey.Value
import Monkey.Value.Dump
import Monkey.Value.Operators
