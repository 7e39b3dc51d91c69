/-
Module: LexLisp.Expr
Purpose: Expression trees. An expression is a numeric literal, a symbol, or a list of expressions; nothing
  about special forms is known here, so a list is a tree of any shape, also one that no evaluation accepts.
Main exports: Expr, Expr.quote, Expr.sequence, Expr.kind, Expr.alike
-/

namespace LexLisp

/-- A node of an expression tree. -/
inductive Expr where
  | number (value : Float)
  | symbol (name : String)
  | list (items : List Expr)
deriving Repr, Inhabited

namespace Expr

/-- The tree `(quote e)`, which evaluates to `e` as data. -/
def quote (body : Expr) : Expr :=
  .list [.symbol "quote", body]

/-- One tree for a whole program: nothing for no forms, the form itself for one, and `(begin ...)` around
    several, since a sequence of one form means what the form means. -/
def sequence : List Expr → Option Expr
  | [] => none
  | [form] => some form
  | forms => some (.list (.symbol "begin" :: forms))

/-- The name of a symbol. -/
def symbol? : Expr → Option String
  | .symbol name => some name
  | _ => none

/-- The elements of a list. -/
def items? : Expr → Option (List Expr)
  | .list items => some items
  | _ => none

/-- What a node is called in a report. -/
def kind : Expr → String
  | .number _ => "number"
  | .symbol _ => "symbol"
  | .list _ => "list"

mutual

/-- Equality of trees in which numbers are compared as numbers: the two zeros agree, and a value that is
    not a number agrees with nothing. -/
def alike : Expr → Expr → Bool
  | .number first, .number second => first == second
  | .symbol first, .symbol second => first == second
  | .list first, .list second => alikeItems first second
  | _, _ => false

/-- Element by element, over lists of one length. -/
def alikeItems : List Expr → List Expr → Bool
  | [], [] => true
  | first :: firsts, second :: seconds => alike first second && alikeItems firsts seconds
  | _, _ => false

end

instance : BEq Expr := ⟨alike⟩

end Expr

end LexLisp
