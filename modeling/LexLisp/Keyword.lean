/-
Module: LexLisp.Keyword
Purpose: The special forms by name. A keyword is recognised only as a symbol at the head of a list, whatever
  that symbol is bound to.
Main exports: Keyword, Keyword.all, Keyword.name, Keyword.arity, Keyword.ofName?, Keyword.ofHead?
-/
import LexLisp.Arity
import LexLisp.Expr

namespace LexLisp

/-- The forms that decide themselves which of their operands are evaluated. -/
inductive Keyword where
  | quote
  | define
  | assign
  | sequence
  | conditional
  | lambda
  | lambdaOne
deriving Repr, Inhabited, DecidableEq

namespace Keyword

/-- All keywords, in the order in which they are listed. -/
def all : List Keyword :=
  [.quote, .define, .assign, .sequence, .conditional, .lambda, .lambdaOne]

/-- The symbol that a keyword is. -/
def name : Keyword → String
  | .quote => "quote"
  | .define => "define"
  | .assign => "set!"
  | .sequence => "begin"
  | .conditional => "if"
  | .lambda => "lambda"
  | .lambdaOne => "lambda-one"

/-- How many operands stand behind the keyword. -/
def arity : Keyword → Arity
  | .quote => .exactly 1
  | .define => .exactly 2
  | .assign => .exactly 2
  | .sequence => .atLeast 1
  | .conditional => .exactly 3
  | .lambda => .exactly 2
  | .lambdaOne => .exactly 2

/-- The keyword of a name. -/
def ofName? (wanted : String) : Option Keyword :=
  all.find? fun keyword => keyword.name == wanted

/-- The keyword at the head of a list. -/
def ofHead? : Expr → Option Keyword
  | .symbol name => ofName? name
  | _ => none

end Keyword

end LexLisp
