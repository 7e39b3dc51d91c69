/-
Module: LexLisp.Json.Number
Purpose: Numbers in JSON. They are written with the shortest digits. They are read in two steps: the digits
  fill a significand of 64 bits for as long as they fit, and that significand is scaled once by a power of
  ten. The result may differ in its last place from the nearest double when the digits are many or the
  exponent is large, which is the price of reading with one rounding a step.
Main exports: Json.numberStyle, Json.NumberText, Json.readNumber, Json.NumberText.value?
-/
import LexLisp.Decimal.Layout
import LexLisp.Surface.Numeral

namespace LexLisp.Json

/-- Numbers in JSON: positional from 0.00001 up to sixteen places before the point, always with a fraction
    or an exponent, so that they read back as the same kind of number. There is no text for infinity. -/
def numberStyle : NumberStyle where
  tie := .even
  positional := some (-5, 15)
  wholeFraction := true
  exponentSign := "+"
  signedZero := true
  positiveInfinity := "null"
  negativeInfinity := "null"
  notANumber := "null"

/-- A number as written: digits before the point, digits behind it, and the exponent with its sign. -/
structure NumberText where
  negative : Bool
  whole : List Char
  fraction : List Char
  exponentNegative : Bool
  exponent : List Char
deriving Repr, Inhabited, DecidableEq

/-- The digits before the point: a zero alone, or digits that start with another one. -/
def readWhole : List Char → Option (List Char × List Char)
  | '0' :: rest => if (rest.takeWhile Char.isDigit).isEmpty then some (['0'], rest) else none
  | characters =>
    let digits := characters.takeWhile Char.isDigit
    if digits.isEmpty then none else some (digits, characters.dropWhile Char.isDigit)

/-- The digits behind the point, at least one if there is a point. -/
def readFraction : List Char → Option (List Char × List Char)
  | '.' :: rest =>
    let digits := rest.takeWhile Char.isDigit
    if digits.isEmpty then none else some (digits, rest.dropWhile Char.isDigit)
  | characters => some ([], characters)

/-- An exponent behind its mark: a sign or none, and at least one digit. -/
def readExponentDigits (negative : Bool) (characters : List Char) :
    Option ((Bool × List Char) × List Char) :=
  let digits := characters.takeWhile Char.isDigit
  if digits.isEmpty then none else some ((negative, digits), characters.dropWhile Char.isDigit)

/-- The exponent, if there is a mark of one. -/
def readExponent : List Char → Option ((Bool × List Char) × List Char)
  | mark :: rest =>
    if mark = 'e' ∨ mark = 'E' then
      match rest with
      | '-' :: digits => readExponentDigits true digits
      | '+' :: digits => readExponentDigits false digits
      | digits => readExponentDigits false digits
    else some ((false, []), mark :: rest)
  | [] => some ((false, []), [])

/-- A number without its sign, and the text behind it. -/
def readMagnitude (negative : Bool) (characters : List Char) : Option (NumberText × List Char) := do
  let (whole, rest) ← readWhole characters
  let (fraction, rest) ← readFraction rest
  let ((exponentNegative, exponent), rest) ← readExponent rest
  some (⟨negative, whole, fraction, exponentNegative, exponent⟩, rest)

/-- A number and the text behind it. -/
def readNumber : List Char → Option (NumberText × List Char)
  | '-' :: rest => readMagnitude true rest
  | characters => readMagnitude false characters

/-- The greatest significand. -/
def significandLimit : Nat := twoTo 64 - 1

/-- The greatest exponent that is taken as a number; a larger one only says that the value is out of
    range, or zero. -/
def exponentLimit : Nat := twoTo 31 - 1

/-- A significand with as many further digits as fit, and how many those are. -/
def absorb (significand : Nat) : List Char → Nat × Nat
  | [] => (significand, 0)
  | digit :: digits =>
    let extended := 10 * significand + (digit.toNat - '0'.toNat)
    if extended ≤ significandLimit then
      let (final, taken) := absorb extended digits
      (final, taken + 1)
    else (significand, 0)

/-- The double nearest to a power of ten. -/
def powerOfTen (exponent : Nat) : Float :=
  Float.ofScientific 1 false exponent

/-- The greatest power of ten that is a finite double has this exponent. -/
def powerLimit : Nat := 308

/-- `significand * 10 ^ exponent`, by one multiplication or division where the power is a double. A smaller
    power is divided by in two steps, and beyond two steps nothing is left. No result is infinite. -/
def scale? (significand : Nat) (exponent : Int) : Option Float :=
  let base := Float.ofNat significand
  if significand = 0 then some base
  else if (powerLimit : Int) < exponent then none
  else if 0 ≤ exponent then
    let scaled := base * powerOfTen exponent.toNat
    if scaled.isInf then none else some scaled
  else if -(powerLimit : Int) ≤ exponent then some (base / powerOfTen (-exponent).toNat)
  else if -(2 * powerLimit : Int) ≤ exponent then
    some (base / powerOfTen powerLimit / powerOfTen (-exponent - powerLimit).toNat)
  else some (Float.ofNat 0)

namespace NumberText

/-- The magnitude of a number. Digits before the point that do not fit raise the exponent, digits behind it
    that do not fit are dropped. -/
def magnitude? (number : NumberText) : Option Float :=
  let (leading, takenWhole) := absorb 0 number.whole
  let (significand, takenFraction) := absorb leading number.fraction
  let dropped : Int := (number.whole.length : Int) - takenWhole
  let written := Numeral.natOfDigits number.exponent
  if exponentLimit < written then
    if significand ≠ 0 ∧ ¬ number.exponentNegative then none else some (Float.ofNat 0)
  else
    let shift : Int := if number.exponentNegative then -(written : Int) else written
    scale? significand (dropped - takenFraction + shift)

/-- The value of a number; `none` if it is too large for a double. -/
def value? (number : NumberText) : Option Float :=
  number.magnitude?.map fun magnitude => if number.negative then -magnitude else magnitude

end NumberText

end LexLisp.Json
