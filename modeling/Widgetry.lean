import Widgetry.Number.Shortest
import Widgetry.Text.Numeral
import Widgetry.Text.Identifier
import Widgetry.Text.Printable
import Widgetry.Number.Layout
import Widgetry.Text.Quoted
import Widgetry.Value.Equality
import Widgetry.Value.Text
import Widgetry.Value.Store
import Widgetry.Language.Operator
import Widgetry.Language.Parser
import Widgetry.Language.Constant
import Widgetry.Language.Interpreter
import Widgetry.Node.Dictionary
import Widgetry.View.Equality
import Widgetry.Conversion.Convert
import Widgetry.Json.Quoted
import Widgetry.Generation.Error
import Widgetry.Generation.TypeMap
import Widgetry.Generation.Expression
import Widgetry.Generation.Component
import Widgetry.Generation.Unit
import Widgetry.View.Blueprint
import Widgetry.Files.Disk
import Widgetry.Files.Glob
import Widgetry.Files.Watcher
import Widgetry.Host.Basic
import Widgetry.Digest.Fingerprint
import Widgetry.Host.Session
import Widgetry.Json.Reader
import Widgetry.Json.Writer
import Widgetry.Settings.Reading
import Widgetry.Generation.SourceFile
import Widgetry.Command.Run
import Widgetry.Language.Data
import Widgetry.Main
import Widgetry.Proofs.Generation.Handlers
import Widgetry.Proofs.Value.References
import Widgetry.Proofs.Value.Equality
import Widgetry.Proofs.Language.Pieces
import Widgetry.Proofs.Language.Rules
import Widgetry.Proofs.Language.Footprint
import Widgetry.Proofs.Language.Locality
import Widgetry.Proofs.Language.Loading
import Widgetry.Proofs.Language.Output
import Widgetry.Proofs.Language.Memory
import Widgetry.Proofs.Language.Constants
import Widgetry.Proofs.Language.Writes
import Widgetry.Proofs.Language.Printing
import Widgetry.Proofs.Language.Reads
import Widgetry.Proofs.Language.Expressions
import Widgetry.Proofs.Language.Statements
import Widgetry.Proofs.Language.RoundTrip
import Widgetry.Proofs.Host.Widgets
import Widgetry.Proofs.Host.Requests
import Widgetry.Proofs.Host.Outcomes
import Widgetry.Proofs.Host.Messages
import Widgetry.Proofs.Host.Reload
import Widgetry.Proofs.Host.Rendering
import Widgetry.Proofs.Host.Schema
import Widgetry.Proofs.Host.Replacement
import Widgetry.Proofs.Host.Variables
import Widgetry.Proofs.Language.Scopes
import Widgetry.Proofs.Generation.Templates
import Widgetry.Proofs.Host.NestedWrites
import Widgetry.Proofs.Generation.Brackets
import Widgetry.Proofs.Generation.Expressions
import Widgetry.Proofs.Generation.Grouping
import Widgetry.Proofs.Files.Watching
import Widgetry.Proofs.Files.Scanning
import Widgetry.Proofs.Host.Edits
import Widgetry.Proofs.Host.Lifecycle
import Widgetry.Proofs.Generation.Defaults
import Widgetry.Proofs.Language.Words
import Widgetry.Proofs.Host.Routing
import Widgetry.Proofs.Generation.Lexical
import Widgetry.Proofs.Generation.Remarks
import Widgetry.Proofs.Generation.Builders
import Widgetry.Proofs.Generation.Components
import Widgetry.Proofs.Generation.Wholeness
import Widgetry.Proofs.Language.Layout
import Widgetry.Proofs.Generation.Shown
import Widgetry.Proofs.Generation.Variants
import Widgetry.Proofs.Host.Failures
import Widgetry.Proofs.Language.Numerals
import Widgetry.Proofs.Generation.Faults
import Widgetry.Proofs.Generation.Refusals
import Widgetry.Proofs.Language.Lexemes
import Widgetry.Proofs.Generation.Units
import Widgetry.Proofs.Generation.LineEnds
import Widgetry.Proofs.Generation.Literals
import Widgetry.Proofs.Generation.Classes
import Widgetry.Proofs.Host.Bookkeeping
import Widgetry.Proofs.Host.SessionErrors
import Widgetry.Proofs.Host.Showing
import Widgetry.Proofs.Host.Addressing
import Widgetry.Proofs.Host.Invalidation
import Widgetry.Proofs.Conversion.Contents
import Widgetry.Proofs.Conversion.Data
import Widgetry.Proofs.Conversion.Tolerance
import Widgetry.Proofs.Generation.Suites
import Widgetry.Proofs.Generation.UnitSuites
import Widgetry.Proofs.Generation.Results
import Widgetry.Proofs.Generation.Stages
import Widgetry.Proofs.Generation.Lookups
import Widgetry.Proofs.Generation.Calls
import Widgetry.Proofs.Generation.Signatures
import Widgetry.Proofs.Language.Bindings
import Widgetry.Proofs.Language.Depth
import Widgetry.Proofs.Language.Assignments
import Widgetry.Proofs.Text.Tables
import Widgetry.Proofs.Language.Writing
import Widgetry.Proofs.Language.Grammar
import Widgetry.Proofs.Language.Leads
import Widgetry.Proofs.Language.Derivations
import Widgetry.Proofs.Language.Lines
import Widgetry.Proofs.Node.Rereading
import Widgetry.Proofs.Node.Nesting
import Widgetry.Proofs.Language.Leaves
import Widgetry.Proofs.Language.Recurrence
import Widgetry.Proofs.Language.Enclosure
import Widgetry.Proofs.Language.Restriction
import Widgetry.Proofs.Language.Subjects
import Widgetry.Proofs.Language.Progress
import Widgetry.Proofs.Generation.Imports
import Widgetry.Proofs.Language.Children
