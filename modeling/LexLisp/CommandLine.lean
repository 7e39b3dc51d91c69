/-
Module: LexLisp.CommandLine
Purpose: What the program does with a command line. All of it is a function of the arguments, of the files
  and of standard input: the exit status, the text on standard output, and the diagnostics.
Main exports: Report, printOutput, linesOfBytes, executeCommand, executeRequest, commandLine
-/
import LexLisp.CommandLine.Arguments
import LexLisp.Repl

namespace LexLisp

/-- What a run of the program leaves behind. -/
structure Report where
  exit : Nat
  stdout : String
  diagnostics : List Diagnostic
deriving Repr, Inhabited, DecidableEq

namespace Report

/-- A run that succeeded and printed a text. -/
def printed (text : String) : Report := ⟨0, text, []⟩

/-- A run that failed and printed nothing. -/
def failed (failure : Failure) : Report := ⟨1, "", [failure.diagnostic]⟩

/-- A command line that cannot be followed. -/
def misused : Report := ⟨2, "", []⟩

/-- The report of a text to print or of a failure. -/
def ofExcept : Except Failure String → Report
  | .ok text => printed text
  | .error failure => failed failure

end Report

/-!
### Output

Colour is written as terminal control sequences. The program's output is not taken for a terminal, so
colour is used only where it is asked for.
-/

/-- Whether a mode colours output that goes to no terminal. -/
def ColorMode.applies : ColorMode → Bool
  | .always => true
  | _ => false

/-- Ends all colour. -/
def colorReset : String := "\x1b[0m"

/-- A text in bold of a colour number, with the sequences that start and end it. -/
def emphasised (color : ColorMode) (number : Nat) (text : String) : String :=
  if color.applies then
    colorReset ++ "\x1b[1m" ++ "\x1b[" ++ toString number ++ "m" ++ text ++ colorReset
  else text

/-- The colour number of values. -/
def green : Nat := 32

/-- The colour number of names. -/
def cyan : Nat := 36

/-- A value on a line of its own. -/
def valueLine (color : ColorMode) (value : Value) : String :=
  emphasised color green (value.text ++ "\n")

/-- A text filled with blanks to a width. -/
def padded (width : Nat) (text : String) : String :=
  text ++ String.ofList (List.replicate (width - text.length) ' ')

/-- The table of primitives. -/
def primitiveTable (color : ColorMode) : String :=
  String.join (Primitive.all.map fun primitive =>
    emphasised color cyan (padded 6 primitive.name) ++ " " ++ primitive.arity.text ++ " operand(s)\n")

/-- An output of the loop on standard output. -/
def printOutput (color : ColorMode) : Output → String
  | .text text => text
  | .value value => valueLine color value
  | .failure _ => ""

/-- The diagnostic of an output of the loop. -/
def Output.diagnostic? : Output → Option Diagnostic
  | .failure cause => some cause.diagnostic
  | _ => none

/-!
### Input
-/

/-- Bytes up to each newline, without it, first the bytes of the line under way, last first. What is left
    at the end is a line unless it is empty. -/
def splitLines (reversed : List UInt8) : List UInt8 → List (List UInt8)
  | [] => if reversed.isEmpty then [] else [reversed.reverse]
  | byte :: bytes =>
    if byte = 10 then reversed.reverse :: splitLines [] bytes else splitLines (byte :: reversed) bytes

/-- A line without a carriage return at its end. -/
def withoutReturn (line : String) : String :=
  if line.endsWith "\r" then String.ofList line.toList.dropLast else line

/-- The lines of an input; a line whose bytes are no text is `none`. Only a newline takes the carriage
    return before it away, so one at the very end of the input stays. -/
def linesOfBytes (bytes : ByteArray) : List (Option String) :=
  let lines := splitLines [] bytes.toList
  let ended := bytes.toList.getLast? == some 10
  lines.mapIdx fun index line =>
    (String.fromUTF8? ⟨line.toArray⟩).map fun text =>
      if index + 1 < lines.length ∨ ended then withoutReturn text else text

/-- The text of a file, if it can be read. -/
def fileText (readFile : String → Option ByteArray) (path : String) : Except Failure String :=
  match (readFile path).bind String.fromUTF8? with
  | some text => .ok text
  | none => .error (.unreadableFile path)

/-!
### Commands
-/

/-- The value of a fresh session's first program. -/
def firstValue (fuel : Nat) (source text : String) : Except Failure Value :=
  (Session.fresh.execute fuel source text).1

/-- The name that a text on the command line goes by. -/
def evalSource : String := "<eval>"

/-- The forms of a text, each on a line. -/
def formLines (source text : String) (asJson : Bool) : Except Failure String :=
  match read source text with
  | .ok forms =>
    .ok (String.join (forms.map fun form => (if asJson then form.toJson else form.text) ++ "\n"))
  | .error error => .error (.unread error)

/-- What a command does. -/
def executeCommand (fuel : Nat) (readFile : String → Option ByteArray) (input : ByteArray)
    (color : ColorMode) : Command → Report
  | .run path => .ofExcept do
    let text ← fileText readFile path
    let value ← firstValue fuel path text
    pure (valueLine color value)
  | .eval text => .ofExcept do
    let value ← firstValue fuel evalSource text
    pure (valueLine color value)
  | .ast path asJson => .ofExcept do
    let text ← fileText readFile path
    formLines path text asJson
  | .json path => .ofExcept do
    let text ← fileText readFile path
    let value ← (Session.fresh.executeJson fuel path text).1
    pure (valueLine color value)
  | .repl =>
    let outputs := runRepl fuel (linesOfBytes input)
    ⟨0, String.join (outputs.map (printOutput color)), outputs.filterMap Output.diagnostic?⟩
  | .listPrimitives => .printed (primitiveTable color)

/-- The version of the program. -/
def versionLine : String := "scheem 0.1.0\n"

/-- What a request does. -/
def executeRequest (fuel : Nat) (readFile : String → Option ByteArray) (input : ByteArray) :
    Request → Report
  | .version => .printed versionLine
  | .invoke invocation => executeCommand fuel readFile input invocation.color invocation.command

/-- What a command line does. -/
def commandLine (fuel : Nat) (readFile : String → Option ByteArray) (input : ByteArray)
    (arguments : List String) : Report :=
  match Request.parse? arguments with
  | some request => executeRequest fuel readFile input request
  | none => .misused

end LexLisp
