/-
Module: LexLisp.Decimal.Layout
Purpose: How a number is written once its digits are known. The choices a text format makes (where
  positional writing ends, whether a whole number keeps a fraction, how an exponent is marked, what
  becomes of zero and of the values that are no numbers) are one record, so that each format of this
  library is one value of it.
Main exports: NumberStyle, NumberStyle.write
-/
import LexLisp.Decimal.Shortest

namespace LexLisp

/-- The choices of a text format for numbers. -/
structure NumberStyle where
  /-- Which of two equally near shortest decimals is written. -/
  tie : TieRule
  /-- The exponents of the leading digit that are written positionally, least and greatest; `none` if
      every number is. -/
  positional : Option (Int × Int)
  /-- Whether a whole number in positional writing gets the fraction `.0`. -/
  wholeFraction : Bool
  /-- What stands before a nonnegative exponent. -/
  exponentSign : String
  /-- Whether negative zero shows its sign. -/
  signedZero : Bool
  positiveInfinity : String
  negativeInfinity : String
  notANumber : String
deriving Repr, Inhabited

namespace NumberStyle

/-- The digits of a natural number, most significant first. -/
def digitText (number : Nat) : String :=
  String.ofList (Nat.toDigits 10 number)

/-- So many zeros. -/
def zeros (count : Nat) : String :=
  String.ofList (List.replicate count '0')

/-- Positional writing of `digits * 10 ^ exponent`: the digits with zeros after them, the digits with a
    point among them, or the digits behind `0.` and the zeros that fill the places between. -/
def positionalText (style : NumberStyle) (decimal : Decimal) : String :=
  let digits := Nat.toDigits 10 decimal.digits
  let whole := (digits.length : Int) + decimal.exponent
  if 0 ≤ decimal.exponent then
    String.ofList digits ++ zeros decimal.exponent.toNat ++ (if style.wholeFraction then ".0" else "")
  else if 0 < whole then
    String.ofList (digits.take whole.toNat) ++ "." ++ String.ofList (digits.drop whole.toNat)
  else
    "0." ++ zeros (-whole).toNat ++ String.ofList digits

/-- The exponent of the leading digit of a decimal. -/
def leadingPlace (decimal : Decimal) : Int :=
  (Decimal.digitCount decimal.digits : Int) + decimal.exponent - 1

/-- Scientific writing: one digit before the point, a point only if digits follow it. -/
def scientificText (style : NumberStyle) (decimal : Decimal) : String :=
  let digits := Nat.toDigits 10 decimal.digits
  let fraction := digits.drop 1
  let place := leadingPlace decimal
  let mark := if 0 ≤ place then "e" ++ style.exponentSign else "e-"
  String.ofList (digits.take 1)
    ++ (if fraction.isEmpty then "" else "." ++ String.ofList fraction)
    ++ mark ++ digitText place.natAbs

/-- A decimal without its sign. -/
def magnitudeText (style : NumberStyle) (decimal : Decimal) : String :=
  match style.positional with
  | none => style.positionalText decimal
  | some (least, greatest) =>
    if least ≤ leadingPlace decimal ∧ leadingPlace decimal ≤ greatest then style.positionalText decimal
    else style.scientificText decimal

/-- The text of a double in a style. -/
def write (style : NumberStyle) (number : Float) : String :=
  match Binary64.ofFloat number with
  | .nan => style.notANumber
  | .infinite negative => if negative then style.negativeInfinity else style.positiveInfinity
  | .finite negative significand exponent =>
    let magnitude := style.magnitudeText (Decimal.shortest style.tie significand exponent)
    if negative ∧ (significand ≠ 0 ∨ style.signedZero) then "-" ++ magnitude else magnitude

end NumberStyle

end LexLisp
