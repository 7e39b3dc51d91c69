/-
Module: LexLisp.CommandLine.Arguments
Purpose: The grammar of the command line. Options that hold for every command may stand before the command
  and behind it, at most once in either place, and the place behind it wins. Arguments are taken from left
  to right, and the first one that fits nowhere decides.
Main exports: ColorMode, Command, Invocation, Request, Request.parse?
-/

namespace LexLisp

/-- When output is coloured. -/
inductive ColorMode where
  | auto
  | always
  | never
deriving Repr, Inhabited, DecidableEq

/-- The mode of a name. -/
def ColorMode.ofName? : String → Option ColorMode
  | "auto" => some .auto
  | "always" => some .always
  | "never" => some .never
  | _ => none

/-- What the program is asked to do. -/
inductive Command where
  /-- Run a file and print the last value. -/
  | run (path : String)
  /-- Run a text and print the last value. -/
  | eval (text : String)
  /-- Print the forms of a file, as JSON or as they are. -/
  | ast (path : String) (asJson : Bool)
  /-- Evaluate a tree in a JSON file. -/
  | json (path : String)
  /-- Start the interactive loop. -/
  | repl
  /-- List the primitives. -/
  | listPrimitives
deriving Repr, Inhabited, DecidableEq

/-- A command with the options that hold for all of them. -/
structure Invocation where
  log : Option String
  color : ColorMode
  command : Command
deriving Repr, Inhabited, DecidableEq

/-- A command line that can be followed. -/
inductive Request where
  | version
  | invoke (invocation : Invocation)
deriving Repr, Inhabited, DecidableEq

/-- The options that hold for all commands, as given in one place. -/
structure GlobalOptions where
  log : Option String
  color : Option ColorMode
deriving Repr, Inhabited, DecidableEq

namespace GlobalOptions

/-- No options. -/
def empty : GlobalOptions := ⟨none, none⟩

/-- The options with a value for one of them, unless it is not one of them, has a value already, or does
    not take this one. -/
def set? (options : GlobalOptions) (name value : String) : Option GlobalOptions :=
  match name with
  | "--log" => if options.log.isSome then none else some { options with log := some value }
  | "--color" =>
    if options.color.isSome then none
    else (ColorMode.ofName? value).map fun mode => { options with color := some mode }
  | _ => none

/-- The options of an inner place before those of an outer one. -/
def orElse (inner outer : GlobalOptions) : GlobalOptions :=
  ⟨inner.log.or outer.log, inner.color.or outer.color⟩

end GlobalOptions

/-- Whether an argument is written as an option. A hyphen alone is an ordinary operand. -/
def isOptionLike (argument : String) : Bool :=
  argument.startsWith "-" && argument != "-"

/-- The name of a long option and the value attached to it by `=`. -/
def splitOption (argument : String) : String × Option String :=
  let characters := argument.toList
  let name := String.ofList (characters.takeWhile fun c => c != '=')
  match characters.dropWhile fun c => c != '=' with
  | [] => (name, none)
  | _ :: value => (name, some (String.ofList value))

/-- A global option at the head of the arguments: the options with it, and the arguments behind it. Its
    value is attached, or is the next argument, which must not look like an option itself. -/
def takeGlobal? (options : GlobalOptions) (argument : String) (rest : List String) :
    Option (GlobalOptions × List String) :=
  match splitOption argument, rest with
  | (name, some value), rest => (options.set? name value).map fun options => (options, rest)
  | (name, none), value :: rest =>
    if isOptionLike value then none else (options.set? name value).map fun options => (options, rest)
  | (_, none), [] => none

/-!
### Behind the command
-/

/-- What was given behind a command. -/
structure CommandArguments where
  options : GlobalOptions
  operands : List String
  asJson : Bool
deriving Repr, Inhabited, DecidableEq

/-- The arguments behind a command that takes the flag `--json` or does not. Behind `--` all are operands.
    The bound on the steps is the number of arguments. -/
def takeArguments? (takesJson : Bool) :
    Nat → CommandArguments → List String → Option CommandArguments
  | _, taken, [] => some taken
  | 0, _, _ => none
  | bound + 1, taken, argument :: rest =>
    if argument = "--" then some { taken with operands := taken.operands ++ rest }
    else if !isOptionLike argument then
      takeArguments? takesJson bound { taken with operands := taken.operands ++ [argument] } rest
    else if argument = "--json" then
      if takesJson ∧ ¬ taken.asJson then
        takeArguments? takesJson bound { taken with asJson := true } rest
      else none
    else
      match takeGlobal? taken.options argument rest with
      | some (options, rest) => takeArguments? takesJson bound { taken with options := options } rest
      | none => none

/-- A path must not be empty. -/
def path? (operand : String) : Option String :=
  if operand.isEmpty then none else some operand

/-- The command of a name with its operands. -/
def Command.ofArguments? (name : String) (arguments : CommandArguments) : Option Command :=
  match name, arguments.operands with
  | "run", [operand] => (path? operand).map Command.run
  | "eval", [operand] => some (.eval operand)
  | "ast", [operand] => (path? operand).map fun path => .ast path arguments.asJson
  | "json", [operand] => (path? operand).map Command.json
  | "repl", [] => some .repl
  | "list-primitives", [] => some .listPrimitives
  | _, _ => none

/-- The rest of the command line, from the name of the command on. -/
def invocation? (outer : GlobalOptions) (name : String) (rest : List String) : Option Invocation := do
  let arguments ← takeArguments? (name == "ast") rest.length ⟨.empty, [], false⟩ rest
  let command ← Command.ofArguments? name arguments
  let options := arguments.options.orElse outer
  some ⟨options.log, options.color.getD .auto, command⟩

/-!
### Before the command
-/

/-- Whether an argument asks for the version: the long option as it is, or a cluster of short ones that
    starts with the one for it. -/
def asksVersion (argument : String) : Bool :=
  argument == "--version" || argument.startsWith "-V"

namespace Request

/-- The arguments up to the command. The bound on the steps is their number. -/
def parseFrom? : Nat → GlobalOptions → List String → Option Request
  | _, _, [] => none
  | 0, _, _ => none
  | bound + 1, options, argument :: rest =>
    if !isOptionLike argument then (invocation? options argument rest).map .invoke
    else if asksVersion argument then some .version
    else
      match takeGlobal? options argument rest with
      | some (options, rest) => parseFrom? bound options rest
      | none => none

/-- What a command line asks for; nothing if it is wrong. -/
def parse? (arguments : List String) : Option Request :=
  parseFrom? arguments.length .empty arguments

end Request

end LexLisp
