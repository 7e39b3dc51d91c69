/-
Module: LexLisp.Json.Tree
Purpose: Expression trees as JSON. A number is a number, a symbol is a string, a list is an array, and no
  other JSON value is a tree. Arrays nest to a fixed depth.
Main exports: Expr.toJson, Expr.ofJson?
-/
import LexLisp.Expr
import LexLisp.Json.Number
import LexLisp.Json.Quoted

namespace LexLisp

namespace Expr

mutual

/-- The JSON text of a tree, without blanks. -/
def toJson : Expr → String
  | .number value => Json.numberStyle.write value
  | .symbol name => Json.quoted name
  | .list items => "[" ++ toJsonItems items ++ "]"

/-- The elements of an array, with commas between them. -/
def toJsonItems : List Expr → String
  | [] => ""
  | [item] => toJson item
  | item :: next :: items => toJson item ++ "," ++ toJsonItems (next :: items)

end

end Expr

namespace Json

/-- The blanks of JSON. -/
def isBlank (c : Char) : Bool :=
  c == ' ' || c == '\n' || c == '\t' || c == '\r'

/-- The text from its first character that is no blank. -/
def skipBlanks (characters : List Char) : List Char :=
  characters.dropWhile isBlank

/-- How deep arrays may nest. -/
def nestingLimit : Nat := 127

mutual

/-- The tree at the start of a text, and the text behind it; `depth` more arrays may be opened. The fuel
    goes down by one a call, and every second call takes a character, so twice the length is enough. -/
def readTree : Nat → Nat → List Char → Option (Expr × List Char)
  | 0, _, _ => none
  | fuel + 1, depth, characters =>
    match skipBlanks characters with
    | '"' :: rest => (readString .plain [] rest).map fun (name, rest) => (.symbol name, rest)
    | '[' :: rest =>
      match depth, skipBlanks rest with
      | 0, _ => none
      | _ + 1, ']' :: rest => some (.list [], rest)
      | depth + 1, rest => (readItems fuel depth rest).map fun (items, rest) => (.list items, rest)
    | rest => do
      let (number, rest) ← readNumber rest
      let value ← number.value?
      some (.number value, rest)

/-- The elements of an array up to its closing bracket, and the text behind it. -/
def readItems : Nat → Nat → List Char → Option (List Expr × List Char)
  | 0, _, _ => none
  | fuel + 1, depth, characters => do
    let (item, rest) ← readTree fuel depth characters
    match skipBlanks rest with
    | ',' :: rest => do
      let (items, rest) ← readItems fuel depth rest
      some (item :: items, rest)
    | ']' :: rest => some ([item], rest)
    | _ => none

end

end Json

/-- The tree that a JSON text holds; nothing but blanks may stand behind it. -/
def Expr.ofJson? (text : String) : Option Expr :=
  let characters := text.toList
  match Json.readTree (2 * characters.length + 2) Json.nestingLimit characters with
  | some (tree, rest) => if (Json.skipBlanks rest).isEmpty then some tree else none
  | none => none

end LexLisp
