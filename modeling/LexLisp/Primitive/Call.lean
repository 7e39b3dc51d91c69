/-
Module: LexLisp.Primitive.Call
Purpose: What the primitives compute. Each is a function of one or of two values, so an operand is never
  looked for where there is none: a call with another number of operands is a fault before any operand is
  looked at. Operand types are checked from left to right.
Main exports: Operation, Primitive.operation, Primitive.call
-/
import LexLisp.Fault
import LexLisp.Value

namespace LexLisp

/-- The computation of a primitive. -/
inductive Operation where
  | unary (run : Value → Except Fault Value)
  | binary (run : Value → Value → Except Fault Value)

namespace Primitive

/-- The number that an operand is. -/
def numberOperand (primitive : Primitive) (operand : Value) : Except Fault Float :=
  match operand with
  | .number value => .ok value
  | other => .error (.type primitive.name .aNumber other.described)

/-- The list that an operand is. -/
def listOperand (primitive : Primitive) (operand : Value) : Except Fault (List Value) :=
  match operand with
  | .list items => .ok items
  | other => .error (.type primitive.name .aList other.described)

/-- An operation on two numbers. -/
def onNumbers (primitive : Primitive) (compute : Float → Float → Except Fault Value) : Operation :=
  .binary fun first second => do
    let left ← primitive.numberOperand first
    let right ← primitive.numberOperand second
    compute left right

/-- Arithmetic on two numbers. -/
def arithmetic (primitive : Primitive) (compute : Float → Float → Float) : Operation :=
  primitive.onNumbers fun left right => .ok (.number (compute left right))

/-- A comparison of two numbers. -/
def comparison (primitive : Primitive) (holds : Float → Float → Bool) : Operation :=
  primitive.onNumbers fun left right => .ok (.boolean (holds left right))

/-- A quotient. Both zeros are refused as divisors. -/
def quotient (left right : Float) : Except Fault Value :=
  if right == 0.0 then .error .divisionByZero else .ok (.number (left / right))

/-- A value in front of a list; in front of anything else it makes a list of two. -/
def prepend (first : Value) : Value → Value
  | .list rest => .list (first :: rest)
  | other => .list [first, other]

/-- An access to a list that must not be empty. -/
def access (primitive : Primitive) (select : Value → List Value → Value) : Operation :=
  .unary fun operand => do
    match ← primitive.listOperand operand with
    | [] => .error (.emptyListAccess primitive)
    | first :: rest => .ok (select first rest)

/-- The computation of each primitive. -/
def operation : Primitive → Operation
  | .add => arithmetic .add fun left right => left + right
  | .subtract => arithmetic .subtract fun left right => left - right
  | .multiply => arithmetic .multiply fun left right => left * right
  | .divide => onNumbers .divide quotient
  | .equal => comparison .equal fun left right => left == right
  | .less => comparison .less fun left right => left < right
  | .greater => comparison .greater fun left right => left > right
  | .lessOrEqual => comparison .lessOrEqual fun left right => left ≤ right
  | .greaterOrEqual => comparison .greaterOrEqual fun left right => left ≥ right
  | .cons => .binary fun first second => .ok (prepend first second)
  | .car => access .car fun first _ => first
  | .cdr => access .cdr fun _ rest => .list rest

/-- A call of a primitive. -/
def call (primitive : Primitive) (operands : List Value) : Except Fault Value :=
  match primitive.operation, operands with
  | .unary run, [operand] => run operand
  | .binary run, [first, second] => run first second
  | _, _ => .error (.arity primitive.name primitive.arity operands.length)

end Primitive

end LexLisp
