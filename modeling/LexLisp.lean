import LexLisp.Arity
import LexLisp.CommandLine
import LexLisp.CommandLine.Arguments
import LexLisp.Decimal.Layout
import LexLisp.Decimal.Shortest
import LexLisp.Evaluator
import LexLisp.Expr
import LexLisp.Expr.Printer
import LexLisp.Failure
import LexLisp.Fault
import LexLisp.Inspect
import LexLisp.Json.Number
import LexLisp.Json.Quoted
import LexLisp.Json.Tree
import LexLisp.Keyword
import LexLisp.LogEntry
import LexLisp.Machine
import LexLisp.Main
import LexLisp.Primitive
import LexLisp.Primitive.Call
import LexLisp.Program
import LexLisp.Proofs.Accounts
import LexLisp.Proofs.Anatomy
import LexLisp.Proofs.Application
import LexLisp.Proofs.BoundNames
import LexLisp.Proofs.Chain
import LexLisp.Proofs.ClientRun
import LexLisp.Proofs.Closures
import LexLisp.Proofs.Congruence
import LexLisp.Proofs.Conversation
import LexLisp.Proofs.Coupling
import LexLisp.Proofs.Decimal.Display
import LexLisp.Proofs.Decimal.Packing
import LexLisp.Proofs.Decimal.Rounding
import LexLisp.Proofs.Decimal.Scientific
import LexLisp.Proofs.Decimal.Standing
import LexLisp.Proofs.Depth
import LexLisp.Proofs.Discipline
import LexLisp.Proofs.Endowment
import LexLisp.Proofs.Equality
import LexLisp.Proofs.EventLog
import LexLisp.Proofs.Execution
import LexLisp.Proofs.FrameNames
import LexLisp.Proofs.Fuel
import LexLisp.Proofs.Grouping
import LexLisp.Proofs.Identity
import LexLisp.Proofs.Interruption
import LexLisp.Proofs.Isolation
import LexLisp.Proofs.Json.RoundTrip
import LexLisp.Proofs.Json.Scanning
import LexLisp.Proofs.Kinship
import LexLisp.Proofs.Likeness
import LexLisp.Proofs.LogIndependence
import LexLisp.Proofs.Outcome
import LexLisp.Proofs.Parameters
import LexLisp.Proofs.Positions
import LexLisp.Proofs.Provenance
import LexLisp.Proofs.Purity
import LexLisp.Proofs.Reach
import LexLisp.Proofs.ReadBack
import LexLisp.Proofs.Refusal
import LexLisp.Proofs.Rename
import LexLisp.Proofs.Scope
import LexLisp.Proofs.Script
import LexLisp.Proofs.Simulation
import LexLisp.Proofs.Surface.Grammar
import LexLisp.Proofs.Surface.Joining
import LexLisp.Proofs.Surface.Layout
import LexLisp.Proofs.Surface.Lexing
import LexLisp.Proofs.Surface.Nesting
import LexLisp.Proofs.Surface.Printing
import LexLisp.Proofs.Surface.Quotation
import LexLisp.Proofs.Surface.Submission
import LexLisp.Proofs.Surface.Verdict
import LexLisp.Proofs.Termination
import LexLisp.Proofs.Unmentioned
import LexLisp.Proofs.UserBindings
import LexLisp.Proofs.Variant
import LexLisp.Proofs.Visibility
import LexLisp.Proofs.WellFormed
import LexLisp.Repl
import LexLisp.Session
import LexLisp.Store
import LexLisp.Surface.Numeral
import LexLisp.Surface.ReadError
import LexLisp.Surface.Reader
import LexLisp.Surface.Token
import LexLisp.Text.Blank
import LexLisp.Text.Printable
import LexLisp.Text.Words
import LexLisp.Value
