/-
Module: LexLisp.Repl
Purpose: The interactive loop, as a function from one line of input to the next state. What a line does is
  decided first, from the line and the lines held back so far; the decision is a value, and its effects
  follow from it. A failed input is reported and the loop goes on.
Main exports: isComplete, LineAction, classify, Repl, Repl.evaluateInput, Repl.userBindings, Repl.advance,
  runRepl
-/
import LexLisp.Session
import LexLisp.Text.Blank

namespace LexLisp

/-!
### Lines

An input may take several lines. It is held back while parentheses are open, and an empty line hands it
over as it is, so that the reader can say what is missing.
-/

/-- The count of open parentheses after one more character, and whether a comment is under way. -/
def countParenthesis (state : Int × Bool) (c : Char) : Int × Bool :=
  let (opened, inComment) := state
  if c = '\n' then (opened, false)
  else if inComment then (opened, true)
  else if c = ';' then (opened, true)
  else if c = '(' then (opened + 1, false)
  else if c = ')' then (opened - 1, false)
  else (opened, false)

/-- How many more parentheses a text opens than it closes, outside comments. -/
def openParentheses (text : String) : Int :=
  (text.toList.foldl countParenthesis (0, false)).1

/-- Whether an input can be handed over: it is not blank and no parenthesis is left open. One that closes
    too many counts as complete, so that the reader can report it. -/
def isComplete (text : String) : Bool :=
  !isBlankText text && openParentheses text ≤ 0

/-- What a line does. -/
inductive LineAction where
  /-- It is a command to the loop itself. -/
  | command (text : String)
  /-- It is held back; the buffer is empty if there is nothing to hold. -/
  | hold (buffer : String)
  /-- It completes an input. -/
  | submit (input : String)
deriving Repr, Inhabited, DecidableEq

/-- What a line does after the lines in the buffer. A command is recognised only where an input may
    start. -/
def classify (buffer line : String) : LineAction :=
  if buffer.isEmpty ∧ (trimmed line).startsWith ":" then .command (trimmed line)
  else
    let input := if buffer.isEmpty then line else buffer ++ "\n" ++ line
    if isBlankText input then .hold ""
    else if isComplete input ∨ isBlankText line then .submit input
    else .hold input

/-!
### Commands
-/

/-- The commands of the loop. -/
inductive ReplCommand where
  | help
  | quit
  | reset
  | bindings
  | unknown (text : String)
deriving Repr, Inhabited, DecidableEq

/-- The command that a text names; letters of the basic alphabet count alike in both cases. -/
def ReplCommand.ofText (text : String) : ReplCommand :=
  match String.ofList (text.toList.map Char.toLower) with
  | ":help" => .help
  | ":h" => .help
  | ":quit" => .quit
  | ":q" => .quit
  | ":reset" => .reset
  | ":r" => .reset
  | ":env" => .bindings
  | ":e" => .bindings
  | _ => .unknown text

/-- The answer to the command for help. -/
def helpLines : List String :=
  ["Scheem REPL Commands:",
    "  :help, :h     Show this help",
    "  :quit, :q     Exit the REPL",
    "  :reset, :r    Forget every user binding",
    "  :env, :e      Show user bindings in the global frame",
    "",
    "Enter expressions to evaluate them.",
    "Multi-line expressions are supported."]

/-- What is said at the start. -/
def bannerLines : List String :=
  ["Scheem REPL v0.1.0",
    "Type :help for help, :quit to exit, :reset to clear all bindings",
    ""]

/-- What is said at the end. -/
def farewell : String := "Goodbye!"

/-!
### The loop
-/

/-- What the loop puts out. -/
inductive Output where
  /-- A text as it is. -/
  | text (text : String)
  /-- The value of an input. -/
  | value (value : Value)
  /-- The failure of an input. -/
  | failure (failure : Failure)
deriving Repr, Inhabited

/-- A line of text. -/
def Output.line (text : String) : Output := .text (text ++ "\n")

/-- The state of the loop: a session, how many inputs were evaluated, and the lines held back. -/
structure Repl where
  session : Session
  inputs : Nat
  buffer : String
deriving Inhabited

/-- The loop after one line: its state, what it put out, and whether it ended. -/
structure Turn where
  repl : Repl
  outputs : List Output
  finished : Bool
deriving Inhabited

namespace Repl

/-- The loop before its first line. -/
def fresh : Repl := ⟨.fresh, 0, ""⟩

/-- What asks for the next line. -/
def prompt (repl : Repl) : String :=
  if repl.buffer.isEmpty then "scheem> " else "     -> "

/-- The name that an input goes by, counted from 1. -/
def sourceName (number : Nat) : String :=
  "<repl:" ++ toString number ++ ">"

/-- Evaluates an input; the next one has the next number, whatever comes of this one. -/
def evaluateInput (repl : Repl) (fuel : Nat) (input : String) : Except Failure Value × Repl :=
  let number := repl.inputs + 1
  let (outcome, session) := repl.session.execute fuel (sourceName number) input
  (outcome, { repl with session := session, inputs := number })

/-- Whether a binding is that of a primitive to its own name. -/
def isBuiltin (name : String) : Value → Bool
  | .primitive operation => operation.name == name
  | _ => false

/-- What the global frame binds beyond the primitives, in order of the names. -/
def userBindings (repl : Repl) : List (String × Value) :=
  (repl.session.store.snapshot Store.globalFrame).entries.filter fun entry => !isBuiltin entry.1 entry.2

/-- Obeys a command. -/
def obey (repl : Repl) : ReplCommand → Turn
  | .help => ⟨repl, helpLines.map Output.line, false⟩
  | .quit => ⟨repl, [.line farewell], true⟩
  | .reset => ⟨{ repl with session := repl.session.reset }, [.line "Environment reset."], false⟩
  | .bindings =>
    ⟨repl, repl.userBindings.map fun entry => .line ("  " ++ entry.1 ++ " = " ++ entry.2.text), false⟩
  | .unknown text =>
    ⟨repl, [.line ("Unknown command: " ++ text ++ ". Type :help for available commands.")], false⟩

/-- The loop after one more line. -/
def advance (repl : Repl) (fuel : Nat) (line : String) : Turn :=
  match classify repl.buffer line with
  | .command text => repl.obey (.ofText text)
  | .hold buffer => ⟨{ repl with buffer := buffer }, [], false⟩
  | .submit input =>
    let (outcome, next) := { repl with buffer := "" }.evaluateInput fuel input
    match outcome with
    | .ok value => ⟨next, [.value value], false⟩
    | .error failure => ⟨next, [.failure failure], false⟩

/-- The outputs over lines of input, up to the end of the loop or of the lines. A line that is no text ends
    the loop at once. -/
def outputs (repl : Repl) (fuel : Nat) : List (Option String) → List Output
  | [] => [.text repl.prompt, .line ("\n" ++ farewell)]
  | none :: _ => [.text repl.prompt]
  | some line :: lines =>
    let turn := repl.advance fuel line
    let said := Output.text repl.prompt :: turn.outputs
    if turn.finished then said else said ++ turn.repl.outputs fuel lines

end Repl

/-- All that the loop puts out over lines of input. -/
def runRepl (fuel : Nat) (lines : List (Option String)) : List Output :=
  bannerLines.map Output.line ++ Repl.fresh.outputs fuel lines

end LexLisp
