/-
Module: LexLisp.Arity
Purpose: How many operands a form, a primitive or a procedure takes.
Main exports: Arity, Arity.accepts, Arity.text
-/

namespace LexLisp

/-- The operand counts that are accepted. -/
inductive Arity where
  | exactly (count : Nat)
  | atLeast (count : Nat)
deriving Repr, Inhabited, DecidableEq

namespace Arity

/-- Whether so many operands are accepted. -/
def accepts (arity : Arity) (given : Nat) : Bool :=
  match arity with
  | .exactly count => given == count
  | .atLeast count => count ≤ given

/-- The arity in words. -/
def text : Arity → String
  | .exactly count => "exactly " ++ toString count
  | .atLeast count => "at least " ++ toString count

end Arity

end LexLisp
