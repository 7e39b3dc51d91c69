/-
Module: LexLisp.Inspect
Purpose: Texts that show how something is built. Unlike the printed texts they tell a procedure's body, keep
  a fraction on every number, and quote names, so that no two trees look alike.
Main exports: inspectText, Expr.inspect, Value.inspect, Store.inspectFrame
-/
import LexLisp.Store
import LexLisp.Text.Printable

namespace LexLisp

/-- Numbers under inspection: positional from 0.0001 up to sixteen places before the point. -/
def inspectStyle : NumberStyle where
  tie := .up
  positional := some (-4, 15)
  wholeFraction := true
  exponentSign := ""
  signedZero := true
  positiveInfinity := "inf"
  negativeInfinity := "-inf"
  notANumber := "NaN"

/-- A character as it stands in an inspected text. -/
def inspectChar (c : Char) : String :=
  if c = '"' then "\\\""
  else if c = '\\' then "\\\\"
  else if c = '\n' then "\\n"
  else if c = '\r' then "\\r"
  else if c = '\t' then "\\t"
  else if c.toNat = 0 then "\\0"
  else if isHidden c then "\\u\x7b" ++ String.ofList (Nat.toDigits 16 c.toNat) ++ "\x7d"
  else String.singleton c

/-- A text in quotes. -/
def inspectText (text : String) : String :=
  "\"" ++ String.join (text.toList.map inspectChar) ++ "\""

/-- Items in brackets, with commas between them. -/
def inspectItems (items : List String) : String :=
  "[" ++ String.intercalate ", " items ++ "]"

/-- A record with its fields. -/
def inspectRecord (name : String) (fields : List String) : String :=
  name ++ " \x7b " ++ String.intercalate ", " fields ++ " \x7d"

mutual

/-- How a tree is built. -/
def Expr.inspect : Expr → String
  | .number value => "Number(" ++ inspectStyle.write value ++ ")"
  | .symbol name => "Symbol(" ++ inspectText name ++ ")"
  | .list items => "List(" ++ inspectItems (Expr.inspectAll items) ++ ")"

/-- How the elements of a list are built. -/
def Expr.inspectAll : List Expr → List String
  | [] => []
  | item :: items => item.inspect :: Expr.inspectAll items

end

/-- How an arity is built. -/
def Arity.inspect : Arity → String
  | .exactly count => "Exactly(" ++ toString count ++ ")"
  | .atLeast count => "AtLeast(" ++ toString count ++ ")"

/-- How a value is built. The frame of a procedure is left out, since it may lead back to the procedure;
    data is shown as it is printed. -/
def Value.inspect : Value → String
  | .closure procedure =>
    inspectRecord "Closure"
      ["params: " ++ inspectItems (procedure.parameters.map inspectText),
        "body: " ++ procedure.body.inspect, ".."]
  | .primitive operation =>
    inspectRecord "Primitive"
      ["name: " ++ inspectText operation.name, "arity: " ++ operation.arity.inspect]
  | data => data.text

/-- What a frame is made of: the names that it binds itself, and the length of its chain. -/
def Store.inspectFrame (store : Store) (frame : FrameId) : String :=
  inspectRecord "Environment"
    ["names: " ++ inspectItems ((store.names frame).map inspectText),
      "depth: " ++ toString (store.depth frame)]

end LexLisp
