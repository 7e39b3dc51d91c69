/-
Module: LexLisp.Fault
Purpose: Why an evaluation failed. A fault is a cause with the names it is about; its words are one function
  of it.
Main exports: Expectation, Fault, Fault.kind, Fault.code, Fault.message, Fault.help
-/
import LexLisp.Primitive

namespace LexLisp

/-- What an operand of the wrong type should have been. -/
inductive Expectation where
  | aNumber
  | aList
  | aSymbol
  | parameterList
  | distinctNames
  | condition
deriving Repr, Inhabited, DecidableEq

/-- An expectation in words. -/
def Expectation.text : Expectation → String
  | .aNumber => "a number"
  | .aList => "a list"
  | .aSymbol => "a symbol"
  | .parameterList => "a parameter list"
  | .distinctNames => "distinct parameter names"
  | .condition => "#t or #f as its condition"

/-- A failed evaluation. -/
inductive Fault where
  /-- A form or callee got a number of operands that it does not take. -/
  | arity (form : String) (expected : Arity) (given : Nat)
  /-- A form or primitive found something other than it takes. -/
  | type (form : String) (expected : Expectation) (found : String)
  | unboundVariable (name : String)
  | divisionByZero
  /-- The first element, or the rest, of the empty list. -/
  | emptyListAccess (operation : Primitive)
  /-- The head of an application is unbound or cannot be applied. -/
  | unknownOperator (operator : String)
deriving Repr, Inhabited, DecidableEq

namespace Fault

/-- The class of a fault. -/
def kind : Fault → String
  | .arity _ _ _ => "ArityError"
  | .type _ _ _ => "TypeError"
  | .unboundVariable _ => "UnboundVariable"
  | .divisionByZero => "DivisionByZero"
  | .emptyListAccess _ => "EmptyListAccess"
  | .unknownOperator _ => "UnknownOperator"

/-- The diagnostic code of a fault. -/
def code : Fault → String
  | .arity _ _ _ => "scheem::eval::arity"
  | .type _ _ _ => "scheem::eval::type_error"
  | .unboundVariable _ => "scheem::eval::unbound_variable"
  | .divisionByZero => "scheem::eval::division_by_zero"
  | .emptyListAccess _ => "scheem::eval::empty_list_access"
  | .unknownOperator _ => "scheem::eval::unknown_operator"

/-- The words of a fault. -/
def message : Fault → String
  | .arity form expected given =>
    "'" ++ form ++ "' expects " ++ expected.text ++ " operand(s), " ++ toString given ++ " given"
  | .type form expected found => "'" ++ form ++ "' expects " ++ expected.text ++ ", found " ++ found
  | .unboundVariable name => "unbound variable '" ++ name ++ "'"
  | .divisionByZero => "'" ++ Primitive.divide.name ++ "' expects a non-zero divisor"
  | .emptyListAccess operation => "'" ++ operation.name ++ "' expects a non-empty list"
  | .unknownOperator operator => "unknown operator '" ++ operator ++ "'"

/-- How to mend the program, where there is one way. -/
def help : Fault → Option String
  | .arity form _ _ => some ("check the number of operands passed to '" ++ form ++ "'")
  | .unboundVariable name => some ("bind it first with (define " ++ name ++ " ...)")
  | .unknownOperator _ =>
    some "the head of a form must be a special form, a primitive, or a procedure"
  | _ => none

end Fault

end LexLisp
