/-
Module: LexLisp.Main
Purpose: The program itself. It reads files and lines and writes what `LexLisp.CommandLine` and
  `LexLisp.Repl` say; nothing is decided here.
Main exports: main
-/
import LexLisp.CommandLine

namespace LexLisp.Main

/-- The contents of a file, if it can be read. -/
def contents? (path : String) : IO (Option ByteArray) := do
  try
    let bytes ← IO.FS.readBinFile path
    pure (some bytes)
  catch _ => pure none

/-- The file that a command reads. -/
def commandFile? : Command → Option String
  | .run path => some path
  | .ast path _ => some path
  | .json path => some path
  | _ => none

/-- Writes a diagnostic to standard error. -/
def explain (diagnostic : Diagnostic) : IO Unit := do
  IO.eprintln (diagnostic.code ++ ": " ++ diagnostic.message)
  match diagnostic.help with
  | some advice => IO.eprintln ("  help: " ++ advice)
  | none => pure ()

/-- Writes a report, and gives the exit status. -/
def deliver (report : Report) : IO UInt32 := do
  IO.print report.stdout
  report.diagnostics.forM explain
  pure (UInt32.ofNat report.exit)

/-- The bytes of the next line with its newline; none at the end of the input. -/
partial def lineBytes (input : IO.FS.Stream) (line : ByteArray) : IO ByteArray := do
  let next ← input.read 1
  if next.isEmpty then pure line
  else if next.toList == [10] then pure (line ++ next)
  else lineBytes input (line ++ next)

/-- Writes an output of the interactive loop. -/
def present (color : ColorMode) (output : Output) : IO Unit := do
  IO.print (printOutput color output)
  output.diagnostic?.forM explain

/-- The interactive loop, one line of input after another. -/
partial def converse (color : ColorMode) (input : IO.FS.Stream) (repl : Repl) : IO Unit := do
  IO.print repl.prompt
  (← IO.getStdout).flush
  let bytes ← lineBytes input ByteArray.empty
  match linesOfBytes bytes with
  | some line :: _ =>
    let turn := repl.advance defaultFuel line
    turn.outputs.forM (present color)
    if turn.finished then pure () else converse color input turn.repl
  | none :: _ => pure ()
  | [] => IO.println ("\n" ++ farewell)

/-- What a wrong command line is answered with. -/
def usage : String :=
  "usage: scheem [--log FILTER] [--color WHEN] (run | eval | ast | json | repl | list-primitives) ..."

/-- Follows a request. -/
def follow : Request → IO UInt32
  | .version => deliver (.printed versionLine)
  | .invoke invocation => do
    match invocation.command with
    | .repl =>
      bannerLines.forM IO.println
      converse invocation.color (← IO.getStdin) Repl.fresh
      pure 0
    | command =>
      let file ←
        match commandFile? command with
        | some path => contents? path
        | none => pure none
      deliver (executeCommand defaultFuel (fun _ => file) ByteArray.empty invocation.color command)

end LexLisp.Main

/-- Follows the command line, and gives the exit status. -/
def main (arguments : List String) : IO UInt32 :=
  match LexLisp.Request.parse? arguments with
  | some request => LexLisp.Main.follow request
  | none => do
    IO.eprintln LexLisp.Main.usage
    LexLisp.Main.deliver .misused
