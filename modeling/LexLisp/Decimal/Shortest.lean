/-
Module: LexLisp.Decimal.Shortest
Purpose: The shortest decimal that stands for a double. A double is taken apart into an integer times a
  power of two, and every decimal between the two halfway points to its neighbours stands for it. The
  search goes from one digit to seventeen; on each grid of decimals only the two points next to the value
  can be the nearest, so two tests a grid are enough. All arithmetic is on natural numbers.
Main exports: Binary64, Binary64.ofFloat, Decimal, TieRule, Decimal.shortest
-/

namespace LexLisp

/-- A power of two. -/
def twoTo (exponent : Nat) : Nat :=
  Nat.pow 2 exponent

/-- A power of ten. -/
def tenTo (exponent : Nat) : Nat :=
  Nat.pow 10 exponent

/-- A double taken apart. A finite one is `significand * 2 ^ exponent` with a sign in front; zero has the
    significand 0, and keeps its sign. -/
inductive Binary64 where
  | nan
  | infinite (negative : Bool)
  | finite (negative : Bool) (significand : Nat) (exponent : Int)
deriving Repr, Inhabited, DecidableEq

/-- The reading of a 64-bit pattern: one sign bit, eleven bits of biased exponent, 52 bits of fraction.
    The least biased exponent marks the subnormal numbers, whose leading bit is 0 and not 1. -/
def Binary64.ofBits (bits : Nat) : Binary64 :=
  let negative : Bool := bits / twoTo 63 % 2 == 1
  let biased : Nat := bits / twoTo 52 % 2048
  let fraction : Nat := bits % twoTo 52
  if biased = 2047 then
    if fraction = 0 then .infinite negative else .nan
  else if biased = 0 then .finite negative fraction (-1074)
  else .finite negative (twoTo 52 + fraction) ((biased : Int) - 1075)

/-- A double taken apart. -/
def Binary64.ofFloat (number : Float) : Binary64 :=
  .ofBits number.toBits.toNat

/-- The decimal `digits * 10 ^ exponent`. -/
structure Decimal where
  digits : Nat
  exponent : Int
deriving Repr, Inhabited, DecidableEq

/-- Which of two decimals of the same length and the same distance from a value is taken. -/
inductive TieRule where
  /-- The larger one. -/
  | up
  /-- The one whose last digit is even. -/
  | even
deriving Repr, Inhabited, DecidableEq

namespace Decimal

/-- How many decimal digits a natural number is written with. -/
def digitCount (number : Nat) : Nat :=
  (Nat.toDigits 10 number).length

/-- The exponent of the leading decimal digit of `significand * 2 ^ exponent`: the value lies between
    this power of ten, included, and the next one, excluded. -/
def leadingExponent (significand : Nat) (exponent : Int) : Int :=
  let numerator := significand * twoTo exponent.toNat
  let denominator := twoTo (-exponent).toNat
  if denominator ≤ numerator then (digitCount (numerator / denominator) : Int) - 1
  else
    let places := digitCount (denominator / numerator) - 1
    if numerator * tenTo places = denominator then -(places : Int) else -(places : Int) - 1

/-- The multiple of `10 ^ grid` that stands for `significand * 2 ^ exponent` and is nearest to it, if any
    multiple does. Lengths are counted in quarters of the last binary place: the halfway point above is
    two quarters away, and so is the one below, unless the significand is the least of its binade, where
    the neighbour below is only half as far. Halfway points round to an even significand. -/
def nearestOnGrid? (tie : TieRule) (significand : Nat) (exponent grid : Int) : Option Nat :=
  let scale := twoTo (exponent - 2).toNat * tenTo (-grid).toNat
  let step := tenTo grid.toNat * twoTo (2 - exponent).toNat
  let gapBelow := if significand = twoTo 52 ∧ -1074 < exponent then 1 else 2
  let value := 4 * significand * scale
  let lower := (4 * significand - gapBelow) * scale
  let upper := (4 * significand + 2) * scale
  let stands := fun multiple =>
    if significand % 2 = 0 then decide (lower ≤ multiple * step ∧ multiple * step ≤ upper)
    else decide (lower < multiple * step ∧ multiple * step < upper)
  let below := value / step
  let above := below + 1
  match stands below, stands above with
  | false, false => none
  | true, false => some below
  | false, true => some above
  | true, true =>
    match compare (2 * value) ((below + above) * step) with
    | .lt => some below
    | .gt => some above
    | .eq =>
      match tie with
      | .up => some above
      | .even => some (if below % 2 = 0 then below else above)

/-- The decimal expansion of `significand * 2 ^ exponent`, which is always finite. -/
def exact (significand : Nat) (exponent : Int) : Decimal :=
  if 0 ≤ exponent then ⟨significand * twoTo exponent.toNat, 0⟩
  else ⟨significand * Nat.pow 5 (-exponent).toNat, exponent⟩

/-- The decimal with the fewest digits that stands for the double `significand * 2 ^ exponent`, and of
    those the nearest to it. The first grid has one digit, and a value just below a power of ten may be
    nearest to that power, which is then written with one digit as well. Seventeen digits are enough for
    every double, so the exact expansion at the end is never reached by one. -/
def shortest (tie : TieRule) (significand : Nat) (exponent : Int) : Decimal :=
  if significand = 0 then ⟨0, 0⟩
  else
    let leading := leadingExponent significand exponent
    let onGrid := fun (extraDigits : Nat) =>
      let grid := leading - (extraDigits : Int)
      (nearestOnGrid? tie significand exponent grid).map fun digits =>
        if digits = 10 then Decimal.mk 1 (grid + 1) else Decimal.mk digits grid
    ((List.range 17).findSome? onGrid).getD (exact significand exponent)

end Decimal

end LexLisp
