/-
Module: LexLisp.Proofs.Decimal.Rounding
Purpose: Rounding to doubles. The model of floating-point numbers keeps a mantissa with two residual bits, shifts
  it to the exponent that a double of that size has, and rounds it to the nearest, ties to even. A value between
  the halfway points around a double is rounded to that double, also where rounding carries into the next
  binade. Values are rational numbers, so nothing is lost in what is said about them.
Main exports: Represents, RoundsTo, Binary64.Canonical, Stands, roundWithAccuracy_eq
-/
import LexLisp.Decimal.Shortest
import Mathlib

namespace LexLisp

open Float.Model
open Float.Model.UnpackedFloat

/-!
### Residual bits
-/

/-- What a mantissa and its residual bits say of a value, counted in the last place of the mantissa: the
    mantissa is the whole part, the round bit says whether the rest is a half or more, and the sticky bit
    whether it is neither nothing nor exactly a half. -/
structure Represents (extended : ExtendedMantissa) (value : ℚ) : Prop where
  lower : extended.mantissa ≤ value
  upper : value < extended.mantissa + 1
  round : extended.roundBit = true ↔ extended.mantissa + 1 / 2 ≤ value
  sticky : extended.stickyBit = true ↔
    value ≠ extended.mantissa ∧ value ≠ extended.mantissa + 1 / 2

/-- The value lies between the halfway points around a natural number, and on one of them only if that number is
    even. -/
structure RoundsTo (value : ℚ) (number : Nat) : Prop where
  lower : number - 1 / 2 ≤ value
  upper : value ≤ number + 1 / 2
  even : value = number - 1 / 2 ∨ value = number + 1 / 2 → number % 2 = 0

/-- One of the residual bits is set if anything is left behind the mantissa. -/
theorem Represents.inexact_iff {extended : ExtendedMantissa} {value : ℚ}
    (represents : Represents extended value) :
    (extended.roundBit || extended.stickyBit) = true ↔ value ≠ extended.mantissa := by
  rw [Bool.or_eq_true, represents.round, represents.sticky]
  constructor
  · intro left same
    rcases left with half | ⟨different, _⟩
    · linarith
    · exact different same
  · intro different
    by_cases half : value = extended.mantissa + 1 / 2
    · exact Or.inl half.ge
    · exact Or.inr ⟨different, half⟩

/-- A shift by one place halves the value. -/
theorem Represents.shiftRightOne {extended : ExtendedMantissa} {value : ℚ}
    (represents : Represents extended value) : Represents extended.shiftRightOne (value / 2) := by
  have inexact := represents.inexact_iff
  have lower := represents.lower
  have upper := represents.upper
  have split : (extended.mantissa : ℚ) =
      2 * (extended.mantissa / 2 : Nat) + (extended.mantissa % 2 : Nat) := by
    exact_mod_cast (Nat.div_add_mod extended.mantissa 2).symm
  unfold ExtendedMantissa.shiftRightOne
  rcases Nat.mod_two_eq_zero_or_one extended.mantissa with even | odd
  · rw [even, Nat.cast_zero, add_zero] at split
    refine ⟨by simp only; linarith, by simp only; linarith, ?_, ?_⟩
    · simp only [even, bne_self_eq_false, Bool.false_eq_true, false_iff, not_le]
      linarith
    · rw [inexact]
      simp only [ne_eq]
      constructor
      · intro different
        exact ⟨fun same => different (by linarith), fun same => by linarith⟩
      · intro different same
        exact different.1 (by linarith)
  · rw [odd, Nat.cast_one] at split
    refine ⟨by simp only; linarith, by simp only; linarith, ?_, ?_⟩
    · simp only [odd]
      constructor
      · intro _
        linarith
      · intro _
        rfl
    · rw [inexact]
      simp only [ne_eq]
      constructor
      · intro different
        exact ⟨fun same => by linarith, fun same => different (by linarith)⟩
      · intro different same
        exact different.2 (by linarith)

/-- A shift by some places divides the value by that power of two. -/
theorem Represents.shiftRight {extended : ExtendedMantissa} {value : ℚ}
    (represents : Represents extended value) (places : Nat) :
    Represents (extended >>> places) (value / 2 ^ places) := by
  induction places with
  | zero =>
      rw [pow_zero, div_one]
      exact represents
  | succ places inductionHypothesis =>
      rw [pow_succ, ← div_div]
      exact inductionHypothesis.shiftRightOne

/-- Rounding takes the number between whose halfway points the value lies. -/
theorem Represents.roundedMantissa_eq {extended : ExtendedMantissa} {value : ℚ} {number : Nat}
    (represents : Represents extended value) (rounds : RoundsTo value number) :
    extended.roundedMantissa = number := by
  obtain ⟨mantissa, roundBit, stickyBit⟩ := extended
  obtain ⟨least, greatest, round, sticky⟩ := represents
  obtain ⟨lower, upper, even⟩ := rounds
  simp only [ExtendedMantissa.roundedMantissa] at least greatest round sticky ⊢
  have notAbove : number < mantissa + 2 := by
    exact_mod_cast (by linarith : (number : ℚ) < mantissa + 2)
  cases roundBit with
  | false =>
      have small : value < mantissa + 1 / 2 := by simpa using round
      have notBelow : mantissa < number + 1 := by
        exact_mod_cast (by linarith : (mantissa : ℚ) < number + 1)
      have notNext : number < mantissa + 1 := by
        exact_mod_cast (by linarith : (number : ℚ) < mantissa + 1)
      cases stickyBit <;> simp only [ExtendedMantissa.accuracy, Accuracy.roundToNearestEven] <;> omega
  | true =>
      have large : mantissa + 1 / 2 ≤ value := by simpa using round
      cases stickyBit with
      | false =>
          have half : value = mantissa + 1 / 2 := by
            by_contra different
            exact absurd (sticky.mpr ⟨by linarith, different⟩) Bool.false_ne_true
          have notBelow : mantissa ≤ number := by
            exact_mod_cast (by linarith : (mantissa : ℚ) ≤ number)
          have isEven : number % 2 = 0 := by
            apply even
            rcases Nat.lt_or_ge mantissa number with next | same
            · obtain rfl : number = mantissa + 1 := by omega
              left
              push_cast
              linarith
            · obtain rfl : number = mantissa := by omega
              exact Or.inr half
          simp only [ExtendedMantissa.accuracy, Accuracy.roundToNearestEven]
          omega
      | true =>
          have more : mantissa + 1 / 2 < value := lt_of_le_of_ne large (sticky.mp rfl).2.symm
          have notBelow : mantissa < number := by
            exact_mod_cast (by linarith : (mantissa : ℚ) < number)
          simp only [ExtendedMantissa.accuracy, Accuracy.roundToNearestEven]
          omega

/-- A whole number and a rest below one. -/
theorem represents_add {whole : Nat} {round sticky : Bool} {rest : ℚ} (nonnegative : 0 ≤ rest)
    (small : rest < 1) (isRound : round = true ↔ 1 / 2 ≤ rest)
    (isSticky : sticky = true ↔ rest ≠ 0 ∧ rest ≠ 1 / 2) :
    Represents ⟨whole, round, sticky⟩ (whole + rest) where
  lower := le_add_of_nonneg_right nonnegative
  upper := add_lt_add_right small whole
  round := by rw [isRound, add_le_add_iff_left]
  sticky := by simp only [isSticky, ne_eq, add_eq_left, add_right_inj]

theorem represents_exact (whole : Nat) : Represents (.ofMantissaAndAccuracy whole .exact) whole := by
  have represents : Represents ⟨whole, false, false⟩ (whole + 0) :=
    represents_add le_rfl one_pos (by norm_num) (by norm_num)
  rwa [add_zero] at represents

/-- A quotient with its remainder, in the form in which division hands it to rounding. -/
theorem represents_fraction (numerator : Nat) {denominator : Nat} (positive : 0 < denominator) :
    Represents (.ofMantissaAndAccuracy (numerator / denominator)
        (accuracyOfFraction (numerator % denominator) denominator))
      (numerator / denominator) := by
  have positiveRational : (0 : ℚ) < denominator := by exact_mod_cast positive
  have value : (numerator : ℚ) / denominator =
      (numerator / denominator : Nat) + (numerator % denominator : Nat) / denominator := by
    have split : (numerator : ℚ) =
        (numerator / denominator : Nat) * denominator + (numerator % denominator : Nat) := by
      exact_mod_cast (Nat.div_add_mod' numerator denominator).symm
    rw [div_eq_iff positiveRational.ne', add_mul, div_mul_cancel₀ _ positiveRational.ne']
    exact split
  have small : ((numerator % denominator : Nat) : ℚ) / denominator < 1 := by
    rw [div_lt_one positiveRational]
    exact_mod_cast Nat.mod_lt numerator positive
  rw [value, accuracyOfFraction]
  generalize numerator % denominator = remainder at small ⊢
  split
  · next none =>
      rw [none, Nat.cast_zero, zero_div, add_zero]
      exact represents_exact _
  · next some =>
      have more : (0 : ℚ) < remainder / denominator :=
        div_pos (by exact_mod_cast Nat.pos_of_ne_zero some) positiveRational
      cases order : compare (2 * remainder) denominator with
      | lt =>
          have below : (remainder : ℚ) / denominator < 1 / 2 := by
            rw [div_lt_iff₀ positiveRational]
            have : (2 * remainder : ℚ) < denominator := by
              exact_mod_cast Nat.compare_eq_lt.mp order
            linarith
          exact represents_add more.le small (by simpa using below)
            (iff_of_true rfl ⟨more.ne', below.ne⟩)
      | eq =>
          have half : (remainder : ℚ) / denominator = 1 / 2 := by
            rw [div_eq_iff positiveRational.ne']
            have : (2 * remainder : ℚ) = denominator := by
              exact_mod_cast Nat.compare_eq_eq.mp order
            linarith
          exact represents_add more.le small (by simpa using half.ge) (by simp [half])
      | gt =>
          have above : 1 / 2 < (remainder : ℚ) / denominator := by
            rw [lt_div_iff₀ positiveRational]
            have : (denominator : ℚ) < 2 * remainder := by
              exact_mod_cast Nat.compare_eq_gt.mp order
            linarith
          exact represents_add more.le small (by simpa using above.le)
            (iff_of_true rfl ⟨more.ne', above.ne'⟩)

/-!
### Doubles and the values that stand for them
-/

/-- The significand and the exponent of a positive double: the significand has 53 bits, or the exponent is the
    least one. -/
structure Binary64.Canonical (significand : Nat) (exponent : Int) : Prop where
  positive : 0 < significand
  bounded : significand < 2 ^ 53
  least : -1074 ≤ exponent
  greatest : exponent ≤ 971
  full : 2 ^ 52 ≤ significand ∨ exponent = -1074

/-- How far below a double its lower halfway point is, in its last place: a half, and only a quarter below the
    least significand, where the neighbour has the smaller exponent. -/
def gapBelow (significand : Nat) (exponent : Int) : ℚ :=
  if significand = 2 ^ 52 ∧ -1074 < exponent then 1 / 4 else 1 / 2

/-- A value stands for a double: it lies between the halfway points to its neighbours, and on one of them only
    if the significand is even. -/
structure Stands (significand : Nat) (exponent : Int) (value : ℚ) : Prop where
  lower : significand - gapBelow significand exponent ≤ value / 2 ^ exponent
  upper : value / 2 ^ exponent ≤ significand + 1 / 2
  even : value / 2 ^ exponent = significand - gapBelow significand exponent ∨
    value / 2 ^ exponent = significand + 1 / 2 → significand % 2 = 0

theorem gapBelow_pos (significand : Nat) (exponent : Int) : 0 < gapBelow significand exponent := by
  unfold gapBelow
  split <;> norm_num

theorem gapBelow_le (significand : Nat) (exponent : Int) : gapBelow significand exponent ≤ 1 / 2 := by
  unfold gapBelow
  split <;> norm_num

/-- A double stands for itself. -/
theorem stands_self (significand : Nat) (exponent : Int) :
    Stands significand exponent (significand * 2 ^ exponent) := by
  have scaled : (significand : ℚ) * 2 ^ exponent / 2 ^ exponent = significand :=
    mul_div_cancel_right₀ _ (by positivity)
  have gap := gapBelow_pos significand exponent
  refine ⟨by rw [scaled]; linarith, by rw [scaled]; linarith, ?_⟩
  rw [scaled]
  intro boundary
  rcases boundary with low | high
  · linarith
  · linarith

namespace Stands

variable {significand : Nat} {exponent : Int} {value : ℚ}

/-- A value that stands for a double is below the next binade. -/
theorem lt_binade (stands : Stands significand exponent value)
    (canonical : Binary64.Canonical significand exponent) : value < 2 ^ (53 + exponent) := by
  have scale : (0 : ℚ) < 2 ^ exponent := by positivity
  have top : (significand : ℚ) + 1 ≤ 2 ^ 53 := by exact_mod_cast canonical.bounded
  have upper := (div_le_iff₀ scale).mp stands.upper
  rw [zpow_add₀ two_ne_zero]
  calc value ≤ (significand + 1 / 2) * 2 ^ exponent := upper
    _ < (significand + 1) * 2 ^ exponent := by
        apply mul_lt_mul_of_pos_right _ scale
        linarith
    _ ≤ 2 ^ (53 : Int) * 2 ^ exponent := by
        apply mul_le_mul_of_nonneg_right _ scale.le
        exact_mod_cast top

theorem le_of_le (stands : Stands significand exponent value) {bound : ℚ}
    (below : bound ≤ significand - 1 / 2) : bound * 2 ^ exponent ≤ value := by
  have scale : (0 : ℚ) < 2 ^ exponent := by positivity
  have gap := gapBelow_le significand exponent
  have lower := stands.lower
  rw [← le_div_iff₀ scale]
  linarith

theorem pos (stands : Stands significand exponent value)
    (canonical : Binary64.Canonical significand exponent) : 0 < value := by
  have whole : (1 : ℚ) ≤ significand := by exact_mod_cast canonical.positive
  have bound := stands.le_of_le (by linarith : (1 / 2 : ℚ) ≤ significand - 1 / 2)
  have scale : (0 : ℚ) < 2 ^ exponent := by positivity
  linarith

theorem roundsTo (stands : Stands significand exponent value) :
    RoundsTo (value / 2 ^ exponent) significand := by
  obtain ⟨lower, upper, even⟩ := stands
  have gap := gapBelow_le significand exponent
  refine ⟨by linarith, upper, ?_⟩
  intro boundary
  rcases boundary with low | high
  · exact even (Or.inl (by linarith))
  · exact even (Or.inr high)

/-- Below the least significand of a binade, the places are those of the binade before. -/
theorem roundsTo_carry (stands : Stands (2 ^ 52) exponent value) (normal : -1074 < exponent)
    (small : value < 2 ^ (52 + exponent)) : RoundsTo (value / 2 ^ (exponent - 1)) (2 ^ 53) := by
  have scale : (0 : ℚ) < 2 ^ exponent := by positivity
  have doubled : value / 2 ^ (exponent - 1) = 2 * (value / 2 ^ exponent) := by
    rw [zpow_sub_one₀ two_ne_zero]
    field_simp
  have lower := stands.lower
  rw [gapBelow, if_pos ⟨rfl, normal⟩] at lower
  rw [zpow_add₀ two_ne_zero, ← div_lt_iff₀ scale] at small
  push_cast at lower
  rw [doubled]
  refine ⟨?_, ?_, fun _ => by norm_num⟩
  · push_cast
    linarith
  · push_cast
    norm_num at small ⊢
    linarith

end Stands

/-!
### The exponent of the result
-/

theorem targetExponent_eq (total : Int) :
    Format.binary64.targetExponent total = max (total - 53) (-1074) := rfl

theorem mantissa_ofMantissaAndAccuracy (mantissa : Nat) (accuracy : Accuracy) :
    (ExtendedMantissa.ofMantissaAndAccuracy mantissa accuracy).mantissa = mantissa := by
  cases accuracy with
  | exact => rfl
  | inexact order => cases order <;> rfl

/-- A value is below the power of two behind its leading bit. -/
theorem Represents.lt_total {extended : ExtendedMantissa} {exponent : Int} {value : ℚ}
    (represents : Represents extended (value / 2 ^ exponent)) :
    value < 2 ^ totalExponent extended.mantissa exponent := by
  have scale : (0 : ℚ) < 2 ^ exponent := by positivity
  have room : (extended.mantissa : ℚ) + 1 ≤ 2 ^ ((extended.mantissa.log2 + 1 : Nat) : Int) := by
    exact_mod_cast Nat.lt_log2_self
  rw [totalExponent, zpow_add₀ two_ne_zero, ← div_lt_iff₀ scale]
  exact lt_of_lt_of_le represents.upper (by exact_mod_cast room)

/-- A value is at least the power of two of its leading bit. -/
theorem Represents.total_le {extended : ExtendedMantissa} {exponent : Int} {value : ℚ}
    (represents : Represents extended (value / 2 ^ exponent)) (some : extended.mantissa ≠ 0) :
    2 ^ (totalExponent extended.mantissa exponent - 1) ≤ value := by
  have scale : (0 : ℚ) < 2 ^ exponent := by positivity
  have leading : (2 : ℚ) ^ (extended.mantissa.log2 : Int) ≤ extended.mantissa := by
    exact_mod_cast Nat.log2_self_le some
  have place : totalExponent extended.mantissa exponent - 1 = extended.mantissa.log2 + exponent := by
    unfold totalExponent
    ring
  rw [place, zpow_add₀ two_ne_zero, ← le_div_iff₀ scale]
  exact leading.trans represents.lower

/-- A mantissa is fine enough for rounding to a double: nothing is known of the places behind its last one but
    what the residual bits say. -/
def FineEnough (mantissa : Nat) (exponent : Int) : Prop :=
  exponent ≤ -1074 ∨ 2 ^ 52 ≤ mantissa

theorem FineEnough.le_target {mantissa : Nat} {exponent : Int} (fine : FineEnough mantissa exponent) :
    exponent ≤ Format.binary64.targetExponent (totalExponent mantissa exponent) := by
  rw [targetExponent_eq, totalExponent]
  rcases fine with small | full
  · exact small.trans (le_max_right _ _)
  · have bits : 52 ≤ mantissa.log2 := (Nat.le_log2 (by omega)).mpr full
    apply le_trans _ (le_max_left _ _)
    omega

/-- Where a value stands for a double, the first shift leads to the exponent of the double, or to the one before
    it if rounding is going to carry. -/
theorem targetExponent_cases {significand : Nat} {exponent : Int} {value : ℚ}
    (stands : Stands significand exponent value)
    (canonical : Binary64.Canonical significand exponent) {extended : ExtendedMantissa} {start : Int}
    (represents : Represents extended (value / 2 ^ start))
    (fine : FineEnough extended.mantissa start) :
    Format.binary64.targetExponent (totalExponent extended.mantissa start) = exponent ∨
      (Format.binary64.targetExponent (totalExponent extended.mantissa start) = exponent - 1 ∧
        significand = 2 ^ 52 ∧ -1074 < exponent ∧ value < 2 ^ (52 + exponent)) := by
  have order : ∀ {first second : Int}, (2 : ℚ) ^ first < 2 ^ second → first < second :=
    fun less => (zpow_lt_zpow_iff_right₀ one_lt_two).mp less
  have least := canonical.least
  have aboveTotal := represents.lt_total
  have notAbove : extended.mantissa ≠ 0 → totalExponent extended.mantissa start - 1 < 53 + exponent :=
    fun some => order ((represents.total_le some).trans_lt (stands.lt_binade canonical))
  rw [targetExponent_eq]
  generalize placed : totalExponent extended.mantissa start = total at *
  rcases eq_or_lt_of_le least with subnormal | normal
  · -- the exponent is the least one, whatever the leading bit
    left
    have small : total - 53 ≤ -1074 := by
      by_cases none : extended.mantissa = 0
      · rw [none, totalExponent, Nat.log2_zero] at placed
        rcases fine with early | full
        · omega
        · omega
      · have := notAbove none
        omega
    omega
  · have full : 2 ^ 52 ≤ significand := canonical.full.resolve_right normal.ne'
    have fullRational : (2 : ℚ) ^ 52 ≤ significand := by exact_mod_cast full
    have notBelow : 51 + exponent < total := by
      apply order
      refine lt_of_le_of_lt ?_ aboveTotal
      rw [zpow_add₀ two_ne_zero]
      exact stands.le_of_le (by norm_num; linarith)
    have some : extended.mantissa ≠ 0 := by
      intro none
      rw [none, totalExponent, Nat.log2_zero] at placed
      rcases fine with early | large
      · omega
      · omega
    have top := notAbove some
    rcases lt_or_ge (52 + exponent) total with high | low
    · left
      omega
    · right
      have same : total = 52 + exponent := by omega
      rw [same] at aboveTotal
      refine ⟨by omega, ?_, normal, aboveTotal⟩
      -- a larger significand would put the value above the power of two
      by_contra larger
      have next : (2 : ℚ) ^ 52 + 1 ≤ significand := by
        exact_mod_cast Nat.lt_of_le_of_ne full (Ne.symm larger)
      have bound := stands.le_of_le (by linarith : (2 ^ 52 : ℚ) ≤ significand - 1 / 2)
      rw [zpow_add₀ two_ne_zero] at aboveTotal
      exact absurd aboveTotal (not_lt.mpr (by exact_mod_cast bound))

/-!
### Rounding
-/

/-- A shift to a larger exponent keeps the value. -/
theorem Represents.shiftToExponent {mantissa : Nat} {start target : Int} {accuracy : Accuracy} {value : ℚ}
    (represents : Represents (.ofMantissaAndAccuracy mantissa accuracy) (value / 2 ^ start))
    (early : start ≤ target) :
    Represents (shiftToExponent mantissa start accuracy target).1 (value / 2 ^ target) ∧
      (shiftToExponent mantissa start accuracy target).2 = target := by
  have places : (((target - start).toNat : Nat) : Int) = target - start := Int.toNat_of_nonneg (by omega)
  refine ⟨?_, by rw [UnpackedFloat.shiftToExponent]; omega⟩
  have shifted := represents.shiftRight (target - start).toNat
  rwa [div_div, ← zpow_natCast, places, ← zpow_add₀ two_ne_zero, add_sub_cancel] at shifted

/-- A canonical mantissa needs no further shift. -/
theorem shiftToTargetExponent_canonical {significand : Nat} {exponent : Int}
    (canonical : Binary64.Canonical significand exponent) :
    shiftToTargetExponent Format.binary64 significand exponent .exact =
      (⟨significand, false, false⟩, exponent) := by
  have bits : significand.log2 ≤ 52 :=
    Nat.le_of_lt_succ ((Nat.log2_lt canonical.positive.ne').mpr canonical.bounded)
  have least := canonical.least
  have none : (Format.binary64.targetExponent (totalExponent significand exponent) - exponent).toNat = 0 := by
    rw [targetExponent_eq, totalExponent]
    omega
  simp only [shiftToTargetExponent, UnpackedFloat.shiftToExponent, none]
  simp [HShiftRight.hShiftRight, Nat.repeat, ExtendedMantissa.ofMantissaAndAccuracy]

/-- A carry out of the mantissa is shifted back by one place. -/
theorem shiftToTargetExponent_carry {exponent : Int} (normal : -1074 < exponent) :
    shiftToTargetExponent Format.binary64 (2 ^ 53) (exponent - 1) .exact =
      (⟨2 ^ 52, false, false⟩, exponent) := by
  have one : (Format.binary64.targetExponent (totalExponent (2 ^ 53) (exponent - 1)) -
      (exponent - 1)).toNat = 1 := by
    rw [targetExponent_eq, totalExponent, Nat.log2_two_pow]
    omega
  simp only [shiftToTargetExponent, UnpackedFloat.shiftToExponent, one]
  simp [HShiftRight.hShiftRight, Nat.repeat, ExtendedMantissa.ofMantissaAndAccuracy,
    ExtendedMantissa.shiftRightOne]

/-- A value that stands for a double is rounded to it. -/
theorem roundWithAccuracy_eq {significand : Nat} {exponent : Int} {value : ℚ}
    (stands : Stands significand exponent value)
    (canonical : Binary64.Canonical significand exponent) {mantissa : Nat} {start : Int}
    {accuracy : Accuracy}
    (represents : Represents (.ofMantissaAndAccuracy mantissa accuracy) (value / 2 ^ start))
    (fine : FineEnough mantissa start) (sign : Sign) :
    roundWithAccuracy Format.binary64 sign mantissa start accuracy =
      .finite sign significand exponent canonical.positive := by
  obtain ⟨shifted, placed⟩ := represents.shiftToExponent fine.le_target
  rw [← mantissa_ofMantissaAndAccuracy mantissa accuracy] at fine
  have cases := targetExponent_cases stands canonical represents fine
  rw [mantissa_ofMantissaAndAccuracy] at cases
  rw [← shiftToTargetExponent] at shifted placed
  have settled : shiftToTargetExponent Format.binary64
      (shiftToTargetExponent Format.binary64 mantissa start accuracy).1.roundedMantissa
      (shiftToTargetExponent Format.binary64 mantissa start accuracy).2 .exact =
        (⟨significand, false, false⟩, exponent) := by
    rw [placed]
    rcases cases with same | ⟨before, least, normal, small⟩
    · rw [same] at shifted ⊢
      rw [shifted.roundedMantissa_eq stands.roundsTo, shiftToTargetExponent_canonical canonical]
    · rw [before] at shifted ⊢
      rw [least] at stands ⊢
      rw [shifted.roundedMantissa_eq (stands.roundsTo_carry normal small),
        shiftToTargetExponent_carry normal]
  simp only [roundWithAccuracy, settled, canonical.positive.ne', dite_false]

end LexLisp