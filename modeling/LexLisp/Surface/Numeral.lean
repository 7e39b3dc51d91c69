/-
Module: LexLisp.Surface.Numeral
Purpose: Which atoms are numbers. A numeral is an optional minus sign, digits, and optionally a point with
  more digits; an atom of any other shape is a symbol, so `-`, `1+` and `.5` are symbols.
Main exports: Numeral, Numeral.parse?, Numeral.value, Expr.ofAtom
-/
import LexLisp.Expr

namespace LexLisp

/-- A numeral of the surface syntax, digits as written. -/
structure Numeral where
  negative : Bool
  whole : List Char
  /-- The digits behind the point; none if there is no point. -/
  fraction : List Char
deriving Repr, Inhabited, DecidableEq

namespace Numeral

/-- The number that a row of digits stands for, in base ten. -/
def natOfDigits (digits : List Char) : Nat :=
  digits.foldl (fun sum digit => 10 * sum + (digit.toNat - '0'.toNat)) 0

/-- A numeral without its sign: digits, and behind a point at least one more. -/
def parseMagnitude? (negative : Bool) (characters : List Char) : Option Numeral :=
  let whole := characters.takeWhile Char.isDigit
  let rest := characters.dropWhile Char.isDigit
  if whole.isEmpty then none
  else
    match rest with
    | [] => some ⟨negative, whole, []⟩
    | point :: fraction =>
      if point = '.' ∧ ¬ fraction.isEmpty ∧ fraction.all Char.isDigit then
        some ⟨negative, whole, fraction⟩
      else none

/-- The numeral that an atom is, if it has the shape of one. -/
def parse? : List Char → Option Numeral
  | '-' :: characters => parseMagnitude? true characters
  | characters => parseMagnitude? false characters

/-- The double nearest to a numeral; a magnitude beyond all doubles gives infinity. The sign is put on
    last, so minus zero keeps it. -/
def value (numeral : Numeral) : Float :=
  let magnitude :=
    Float.ofScientific (natOfDigits (numeral.whole ++ numeral.fraction)) true numeral.fraction.length
  if numeral.negative then -magnitude else magnitude

end Numeral

/-- The leaf of a tree that an atom stands for. -/
def Expr.ofAtom (atom : String) : Expr :=
  match Numeral.parse? atom.toList with
  | some numeral => .number numeral.value
  | none => .symbol atom

end LexLisp
