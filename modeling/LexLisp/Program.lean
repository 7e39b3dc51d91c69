/-
Module: LexLisp.Program
Purpose: Running programs. The forms of a program are evaluated in order in one frame; the first failure
  ends the run, and the effects before it stay. The value of a program is that of its last form, and of an
  empty program the empty list.
Main exports: Run, evaluateForms, runForms, runText, runTree, runJson, runSequence, datumOfText
-/
import LexLisp.Evaluator
import LexLisp.Failure
import LexLisp.Json.Tree
import LexLisp.Surface.Reader

namespace LexLisp

/-- A run: a step of the machine that yields a value or fails. -/
abbrev Run := EStateM Failure Machine

/-- An evaluation as a run. -/
def Run.ofEval {α : Type} (action : Eval α) : Run α :=
  EStateM.adaptExcept Failure.ofStop action

/-- Forms in order, the first of them at a position of the program; `last` is the value so far. The form
    that fails is named in the log. -/
def evaluateFormsFrom (fuel : Nat) (frame : FrameId) : Nat → Value → List Expr → Eval Value
  | _, last, [] => pure last
  | index, _, form :: forms => do
    let value ← (evaluate fuel form frame).onFault fun fault => .failed index form fault
    evaluateFormsFrom fuel frame (index + 1) value forms

/-- The forms of a program in order. -/
def evaluateForms (fuel : Nat) (forms : List Expr) (frame : FrameId) : Eval Value :=
  evaluateFormsFrom fuel frame 0 (.list []) forms

/-- The forms of a program as a run. -/
def runForms (fuel : Nat) (forms : List Expr) (frame : FrameId) : Run Value :=
  Run.ofEval (evaluateForms fuel forms frame)

/-- A program text that goes by the name `source`. Nothing is evaluated unless all of it is read. -/
def runText (fuel : Nat) (source text : String) (frame : FrameId) : Run Value :=
  match read source text with
  | .ok forms => runForms fuel forms frame
  | .error error => throw (.unread error)

/-- One tree as a run. -/
def runTree (fuel : Nat) (tree : Expr) (frame : FrameId) : Run Value :=
  Run.ofEval (evaluate fuel tree frame)

/-- One tree in its JSON text, which goes by the name `source`. -/
def runJson (fuel : Nat) (source text : String) (frame : FrameId) : Run Value :=
  match Expr.ofJson? text with
  | some tree => runTree fuel tree frame
  | none => throw (.malformedTree source)

/-- A program text as one tree, its forms in a sequence; nothing for an empty program. -/
def runSequence (fuel : Nat) (source text : String) (frame : FrameId) : Run (Option Value) :=
  match read source text with
  | .ok forms =>
    match Expr.sequence forms with
    | some tree => some <$> runTree fuel tree frame
    | none => pure none
  | .error error => throw (.unread error)

/-- A text of exactly one expression, as data. -/
def datumOfText (text : String) : Except ReadError Value :=
  (readOne text).map Value.ofDatum

end LexLisp
