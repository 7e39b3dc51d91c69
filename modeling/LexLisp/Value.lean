/-
Module: LexLisp.Value
Purpose: What evaluation yields. Numbers, symbols, truth values and lists are data; closures and primitives
  can be applied. A closure does not hold its frame, only the frame's number in a store, so a value is a
  finite tree even where procedures refer to one another; its identity is a number as well.
Main exports: FrameId, Closure, Value, Value.kind, Value.text, Value.ofDatum, Value.same
-/
import LexLisp.Expr.Printer
import LexLisp.Primitive

namespace LexLisp

/-- The number of a frame in a store. -/
abbrev FrameId := Nat

/-- A procedure of the program: its parameters, its body, and the frame in which it was made. Two closures
    that were made apart have different identities, also where all else agrees. -/
structure Closure where
  identity : Nat
  parameters : List String
  body : Expr
  home : FrameId
deriving Repr, Inhabited

/-- A closure takes one operand for each of its parameters. -/
def Closure.arity (closure : Closure) : Arity :=
  .exactly closure.parameters.length

/-- The result of an evaluation. -/
inductive Value where
  | number (value : Float)
  | symbol (name : String)
  | boolean (value : Bool)
  | list (items : List Value)
  | closure (procedure : Closure)
  | primitive (operation : Primitive)
deriving Repr, Inhabited

/-- The truth value that a symbol stands for; the two tags are no names of variables. -/
def truth? (name : String) : Option Bool :=
  if name = "#t" then some true
  else if name = "#f" then some false
  else none

namespace Value

/-- What a value is called in a report. -/
def kind : Value → String
  | .number _ => "number"
  | .symbol _ => "symbol"
  | .boolean _ => "boolean"
  | .list _ => "list"
  | .closure _ => "procedure"
  | .primitive _ => "primitive"

/-- Whether a value can stand at the head of an application. -/
def isCallable : Value → Bool
  | .closure _ => true
  | .primitive _ => true
  | _ => false

/-- The number that a value is. -/
def number? : Value → Option Float
  | .number value => some value
  | _ => none

/-- The truth value that a value is. -/
def boolean? : Value → Option Bool
  | .boolean value => some value
  | _ => none

/-- The elements of a list. -/
def items? : Value → Option (List Value)
  | .list items => some items
  | _ => none

/-- The tags of truth and falsehood. -/
def tag (value : Bool) : String :=
  if value then "#t" else "#f"

mutual

/-- The text of a value. A procedure shows its parameters, a primitive its name. -/
def text : Value → String
  | .number value => displayNumber value
  | .symbol name => name
  | .boolean value => tag value
  | .list items => parenthesized (texts items)
  | .closure procedure => "#<closure " ++ parenthesized procedure.parameters ++ ">"
  | .primitive operation => "#<primitive " ++ operation.name ++ ">"

/-- The texts of the elements of a list. -/
def texts : List Value → List String
  | [] => []
  | item :: items => text item :: texts items

end

/-- A value with its kind, as reports name an operand. -/
def described (value : Value) : String :=
  value.kind ++ " " ++ value.text

mutual

/-- A tree as data: the tags become truth values, every other symbol stays a symbol. -/
def ofDatum : Expr → Value
  | .number value => .number value
  | .symbol name =>
    match truth? name with
    | some value => .boolean value
    | none => .symbol name
  | .list items => .list (ofData items)

/-- The elements of a list as data. -/
def ofData : List Expr → List Value
  | [] => []
  | item :: items => ofDatum item :: ofData items

end

mutual

/-- Equality of values. Numbers are compared as numbers, so the two zeros agree and a value that is not a
    number differs from itself; closures agree only if they are one closure. -/
def same : Value → Value → Bool
  | .number first, .number second => first == second
  | .symbol first, .symbol second => first == second
  | .boolean first, .boolean second => first == second
  | .list first, .list second => sameItems first second
  | .closure first, .closure second => first.identity == second.identity
  | .primitive first, .primitive second => first == second
  | _, _ => false

/-- Element by element, over lists of one length. -/
def sameItems : List Value → List Value → Bool
  | [], [] => true
  | first :: firsts, second :: seconds => same first second && sameItems firsts seconds
  | _, _ => false

end

instance : BEq Value := ⟨same⟩

end Value

end LexLisp
