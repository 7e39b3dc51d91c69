/-
Module: LexLisp.Failure
Purpose: Why a run did not yield a value, for whoever started it: the text was not read, the evaluation
  failed, a tree was malformed, or a file could not be read. Each failure has one diagnostic.
Main exports: Failure, Failure.ofStop, Diagnostic, Failure.diagnostic
-/
import LexLisp.Machine
import LexLisp.Surface.ReadError

namespace LexLisp

/-- A run without a value. -/
inductive Failure where
  | unread (error : ReadError)
  | fault (cause : Fault)
  /-- The evaluation went deeper than it was allowed to. -/
  | outOfFuel
  /-- The text of that name is no expression tree. -/
  | malformedTree (source : String)
  /-- The file of that path is missing, or no text. -/
  | unreadableFile (path : String)
deriving Repr, Inhabited, DecidableEq

/-- A stopped evaluation as a failure of its run. -/
def Failure.ofStop : Stop → Failure
  | .fault cause => .fault cause
  | .outOfFuel => .outOfFuel

/-- A place in a text and what to say there. -/
structure Label where
  message : String
  offset : Nat
  length : Nat
deriving Repr, Inhabited, DecidableEq

/-- What is shown of a failure. -/
structure Diagnostic where
  kind : String
  code : String
  message : String
  help : Option String
  label : Option Label
  source : Option String
deriving Repr, Inhabited, DecidableEq

/-- The diagnostic of a rejected text. -/
def ReadError.diagnostic (error : ReadError) : Diagnostic where
  kind := "ParseError"
  code := "scheem::parse"
  message := "parse error: " ++ error.fault.message
  help := error.fault.help
  label := some ⟨error.fault.message, error.fault.extent.1, error.fault.extent.2⟩
  source := some error.source

/-- The diagnostic of a failed evaluation. -/
def Fault.diagnostic (fault : Fault) : Diagnostic where
  kind := fault.kind
  code := fault.code
  message := fault.message
  help := fault.help
  label := none
  source := none

/-- The diagnostic of a failure. -/
def Failure.diagnostic : Failure → Diagnostic
  | .unread error => error.diagnostic
  | .fault cause => cause.diagnostic
  | .outOfFuel =>
    ⟨"RecursionLimit", "scheem::eval::recursion_limit", "evaluation is nested too deeply", none, none,
      none⟩
  | .malformedTree source =>
    ⟨"JsonError", "scheem::json", "malformed expression tree in '" ++ source ++ "'",
      some "trees are JSON numbers, strings (symbols) and arrays (forms)", none, none⟩
  | .unreadableFile path =>
    ⟨"IoError", "scheem::io", "cannot read '" ++ path ++ "'", none, none, none⟩

end LexLisp
