import MiniLisp.Data.Equality
import MiniLisp.Data.Inspect
import MiniLisp.Data.Label
import MiniLisp.Data.List
import MiniLisp.Data.Native
import MiniLisp.Data.Node
import MiniLisp.Data.Printer
import MiniLisp.Data.QuoteMark
import MiniLisp.Data.Tree
import MiniLisp.Eval.Builtin
import MiniLisp.Eval.Call
import MiniLisp.Eval.Error
import MiniLisp.Eval.Form
import MiniLisp.Eval.Fuel
import MiniLisp.Eval.Machine
import MiniLisp.Eval.Quasiquote
import MiniLisp.Eval.Run
import MiniLisp.Eval.SpecialForm
import MiniLisp.Eval.Step
import MiniLisp.Main
import MiniLisp.Number.Basic
import MiniLisp.Number.Binary64
import MiniLisp.Number.Literal
import MiniLisp.Number.Shortest
import MiniLisp.Number.Text
import MiniLisp.Program.Exec
import MiniLisp.Program.Fuel
import MiniLisp.Program.Report
import MiniLisp.Program.Trace
import MiniLisp.Prompt.Brackets
import MiniLisp.Prompt.Completion
import MiniLisp.Prompt.Highlight
import MiniLisp.Prompt.Session
import MiniLisp.Proofs.Data.Adoption
import MiniLisp.Proofs.Data.Copy
import MiniLisp.Proofs.Data.Correspondence
import MiniLisp.Proofs.Data.Grounded
import MiniLisp.Proofs.Data.Parts
import MiniLisp.Proofs.Data.Placement
import MiniLisp.Proofs.Data.Renaming
import MiniLisp.Proofs.Data.Sharing
import MiniLisp.Proofs.Data.Shift
import MiniLisp.Proofs.Data.Spans
import MiniLisp.Proofs.Data.TreeView
import MiniLisp.Proofs.Eval.Agreement
import MiniLisp.Proofs.Eval.Assignment
import MiniLisp.Proofs.Eval.Comparison
import MiniLisp.Proofs.Eval.Concatenation
import MiniLisp.Proofs.Eval.Confined
import MiniLisp.Proofs.Eval.Correspondence
import MiniLisp.Proofs.Eval.Definition
import MiniLisp.Proofs.Eval.Direct
import MiniLisp.Proofs.Eval.Discipline
import MiniLisp.Proofs.Eval.Grounded
import MiniLisp.Proofs.Eval.Growth
import MiniLisp.Proofs.Eval.Handover
import MiniLisp.Proofs.Eval.Inert
import MiniLisp.Proofs.Eval.Invariant
import MiniLisp.Proofs.Eval.Let
import MiniLisp.Proofs.Eval.LetForm
import MiniLisp.Proofs.Eval.LetScope
import MiniLisp.Proofs.Eval.Lockstep
import MiniLisp.Proofs.Eval.Loop
import MiniLisp.Proofs.Eval.Mode
import MiniLisp.Proofs.Eval.Occurrence
import MiniLisp.Proofs.Eval.Parameters
import MiniLisp.Proofs.Eval.Reachability
import MiniLisp.Proofs.Eval.Relabel
import MiniLisp.Proofs.Eval.Renaming
import MiniLisp.Proofs.Eval.Replies
import MiniLisp.Proofs.Eval.SpanIndependence
import MiniLisp.Proofs.Eval.Template
import MiniLisp.Proofs.Eval.Trampoline
import MiniLisp.Proofs.Number.Canonical
import MiniLisp.Proofs.Number.Decimal
import MiniLisp.Proofs.Number.Exact
import MiniLisp.Proofs.Number.Numeral
import MiniLisp.Proofs.Program.Canonical
import MiniLisp.Proofs.Program.ErrorSpan
import MiniLisp.Proofs.Program.FirstError
import MiniLisp.Proofs.Program.Grounded
import MiniLisp.Proofs.Prompt.Candidates
import MiniLisp.Proofs.Prompt.Colouring
import MiniLisp.Proofs.Prompt.Finishing
import MiniLisp.Proofs.Prompt.Matching
import MiniLisp.Proofs.Prompt.ReportSpan
import MiniLisp.Proofs.Prompt.Verdict
import MiniLisp.Proofs.Reading.Atoms
import MiniLisp.Proofs.Reading.Derivation
import MiniLisp.Proofs.Reading.EarlyEnd
import MiniLisp.Proofs.Reading.ErrorPlace
import MiniLisp.Proofs.Reading.Grammar
import MiniLisp.Proofs.Reading.Lines
import MiniLisp.Proofs.Reading.Nesting
import MiniLisp.Proofs.Reading.RoundTrip
import MiniLisp.Proofs.Reading.Shift
import MiniLisp.Proofs.Reading.Slices
import MiniLisp.Proofs.Reading.Spans
import MiniLisp.Proofs.Reading.SymbolLists
import MiniLisp.Proofs.Regex.SlashEscapes
import MiniLisp.Proofs.Scope.Acyclic
import MiniLisp.Proofs.Scope.Chain
import MiniLisp.Proofs.Scope.Confined
import MiniLisp.Proofs.Scope.Contents
import MiniLisp.Proofs.Scope.Correspondence
import MiniLisp.Proofs.Scope.Listing
import MiniLisp.Proofs.Scope.Renaming
import MiniLisp.Proofs.Scope.Visibility
import MiniLisp.Proofs.Scope.Walk
import MiniLisp.Proofs.Text.ByteOrder
import MiniLisp.Proofs.Token.Boundary
import MiniLisp.Proofs.Token.ClosingSlash
import MiniLisp.Proofs.Token.Extent
import MiniLisp.Proofs.Token.Longest
import MiniLisp.Proofs.Token.OpenString
import MiniLisp.Proofs.Token.Relayout
import MiniLisp.Proofs.Token.Slash
import MiniLisp.Proofs.Token.StringBody
import MiniLisp.Proofs.Token.Tiling
import MiniLisp.Reader.Basic
import MiniLisp.Reader.Error
import MiniLisp.Regex.Basic
import MiniLisp.Regex.CharSet
import MiniLisp.Regex.Literal
import MiniLisp.Regex.Parser
import MiniLisp.Regex.Property
import MiniLisp.Scope.Global
import MiniLisp.Scope.Store
import MiniLisp.Source.Position
import MiniLisp.Source.Span
import MiniLisp.Text.Inspected
import MiniLisp.Text.Quoted
import MiniLisp.Token.Basic
import MiniLisp.Token.Lexer
import MiniLisp.Unicode.Blank
import MiniLisp.Unicode.Category
import MiniLisp.Unicode.Classes
import MiniLisp.Unicode.Folding
import MiniLisp.Unicode.Pictographic
import MiniLisp.Unicode.Ranges
import MiniLisp.Unicode.Scripts
