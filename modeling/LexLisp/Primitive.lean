/-
Module: LexLisp.Primitive
Purpose: The primitive operations by name. A primitive is a constructor, so there are no others than these;
  what they compute is said in `LexLisp.Primitive.Call`.
Main exports: Primitive, Primitive.all, Primitive.name, Primitive.arity, Primitive.ofName?
-/
import LexLisp.Arity

namespace LexLisp

/-- The operations that every program starts with. -/
inductive Primitive where
  | add
  | subtract
  | multiply
  | divide
  | equal
  | less
  | greater
  | lessOrEqual
  | greaterOrEqual
  | cons
  | car
  | cdr
deriving Repr, Inhabited, DecidableEq

namespace Primitive

/-- All primitives, in the order in which they are listed. -/
def all : List Primitive :=
  [.add, .subtract, .multiply, .divide, .equal, .less, .greater, .lessOrEqual, .greaterOrEqual,
    .cons, .car, .cdr]

/-- The name that a primitive is bound to at the start. -/
def name : Primitive → String
  | .add => "+"
  | .subtract => "-"
  | .multiply => "*"
  | .divide => "/"
  | .equal => "="
  | .less => "<"
  | .greater => ">"
  | .lessOrEqual => "<="
  | .greaterOrEqual => ">="
  | .cons => "cons"
  | .car => "car"
  | .cdr => "cdr"

/-- The list accessors take one operand, all others two. -/
def arity : Primitive → Arity
  | .car => .exactly 1
  | .cdr => .exactly 1
  | _ => .exactly 2

/-- The primitive of a name. -/
def ofName? (wanted : String) : Option Primitive :=
  all.find? fun primitive => primitive.name == wanted

end Primitive

end LexLisp
