/-
Module: LexLisp.Expr.Printer
Purpose: The canonical text of a tree. Numbers never carry an exponent, since the surface syntax has none,
  and whole numbers carry no fraction; lists have single spaces and no quote marks.
Main exports: displayStyle, displayNumber, Expr.text
-/
import LexLisp.Decimal.Layout
import LexLisp.Expr
import LexLisp.Text.Words

namespace LexLisp

/-- Numbers as the language prints them: always positional, no fraction on a whole number, both zeros
    alike, and the larger of two equally near shortest decimals. -/
def displayStyle : NumberStyle where
  tie := .up
  positional := none
  wholeFraction := false
  exponentSign := ""
  signedZero := false
  positiveInfinity := "inf"
  negativeInfinity := "-inf"
  notANumber := "NaN"

/-- The text of a number, in trees and in values. -/
def displayNumber (number : Float) : String :=
  displayStyle.write number

namespace Expr

mutual

/-- The canonical text of a tree. -/
def text : Expr → String
  | .number value => displayNumber value
  | .symbol name => name
  | .list items => parenthesized (texts items)

/-- The texts of the elements of a list. -/
def texts : List Expr → List String
  | [] => []
  | item :: items => text item :: texts items

end

end Expr

end LexLisp
