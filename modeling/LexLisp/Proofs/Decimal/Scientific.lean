/-
Module: LexLisp.Proofs.Decimal.Scientific
Purpose: Doubles from decimals. A row of digits over a power of ten is made into a double in one of two ways: by
  one division of two doubles that hold digits and power exactly, if both are small enough, and otherwise by one
  division of natural numbers. Either way the double is the one that the decimal stands for, and it is always a
  number.
Main exports: div_eq, ofScientific_eq, ofScientific_ne_nan
-/
import LexLisp.Proofs.Decimal.Packing

namespace LexLisp

open Float.Model
open Float.Model.UnpackedFloat

/-!
### Division
-/

/-- The quotient of two positive numbers is computed with enough places. -/
theorem fineEnough_divCore {mantissa divisor : Nat} (positive : 0 < mantissa) (divisible : 0 < divisor)
    (exponent further : Int) :
    FineEnough (divCore Format.binary64 mantissa exponent divisor further).1
      (divCore Format.binary64 mantissa exponent divisor further).2.1 := by
  simp only [divCore, FineEnough, targetExponent_eq, totalExponent]
  generalize goal : min (exponent - further) (max (mantissa.log2 + 1 + exponent -
    (divisor.log2 + 1 + further) - 53) (-1074)) = target
  by_cases early : target ≤ -1074
  · exact Or.inl early
  · right
    have places : 53 + divisor.log2 ≤ mantissa.log2 + (exponent - further - target).toNat := by omega
    rw [Nat.le_div_iff_mul_le divisible, Nat.shiftLeft_eq]
    calc 2 ^ 52 * divisor ≤ 2 ^ 52 * 2 ^ (divisor.log2 + 1) :=
          Nat.mul_le_mul_left _ Nat.lt_log2_self.le
      _ = 2 ^ (53 + divisor.log2) := by ring
      _ ≤ 2 ^ (mantissa.log2 + (exponent - further - target).toNat) :=
          Nat.pow_le_pow_right (by norm_num) places
      _ = 2 ^ mantissa.log2 * 2 ^ (exponent - further - target).toNat := pow_add _ _ _
      _ ≤ mantissa * 2 ^ (exponent - further - target).toNat :=
          Nat.mul_le_mul_right _ (Nat.log2_self_le positive.ne')

/-- The quotient of two positive numbers is represented by what is computed. -/
theorem represents_divCore (mantissa : Nat) {divisor : Nat} (divisible : 0 < divisor)
    (exponent further : Int) {value : ℚ}
    (isQuotient : value = mantissa * 2 ^ exponent / (divisor * 2 ^ further)) :
    Represents (.ofMantissaAndAccuracy (divCore Format.binary64 mantissa exponent divisor further).1
        (divCore Format.binary64 mantissa exponent divisor further).2.2)
      (value / 2 ^ (divCore Format.binary64 mantissa exponent divisor further).2.1) := by
  simp only [divCore]
  generalize goal : min (exponent - further) (Format.binary64.targetExponent
    (totalExponent mantissa exponent - totalExponent divisor further)) = target
  have places : (((exponent - further - target).toNat : Nat) : Int) = exponent - further - target :=
    Int.toNat_of_nonneg (by omega)
  have scaled : value / 2 ^ target =
      ((mantissa <<< (exponent - further - target).toNat : Nat) : ℚ) / divisor := by
    rw [isQuotient, Nat.shiftLeft_eq]
    push_cast
    rw [← zpow_natCast, places, zpow_sub₀ two_ne_zero, zpow_sub₀ two_ne_zero]
    field_simp
  rw [scaled]
  exact represents_fraction _ divisible

/-- Division gives the double that the quotient stands for. -/
theorem div_eq {significand : Nat} {exponent : Int}
    (canonical : Binary64.Canonical significand exponent) {mantissa divisor : Nat} {start further : Int}
    (positive : 0 < mantissa) (divisible : 0 < divisor)
    (stands : Stands significand exponent (mantissa * 2 ^ start / (divisor * 2 ^ further))) :
    UnpackedFloat.div Format.binary64 (.finite .positive mantissa start positive)
      (.finite .positive divisor further divisible) =
        .finite .positive significand exponent canonical.positive :=
  roundWithAccuracy_eq stands canonical (represents_divCore mantissa divisible start further rfl)
    (fineEnough_divCore positive divisible start further) .positive

/-- Multiplication gives the double that the product stands for, if the product has enough places. -/
theorem mul_eq {significand : Nat} {exponent : Int}
    (canonical : Binary64.Canonical significand exponent) {mantissa factor : Nat} {start further : Int}
    (positive : 0 < mantissa) (some : 0 < factor)
    (stands : Stands significand exponent ((mantissa * factor : Nat) * 2 ^ (start + further)))
    (fine : FineEnough (mantissa * factor) (start + further)) :
    UnpackedFloat.mul Format.binary64 (.finite .positive mantissa start positive)
      (.finite .positive factor further some) =
        .finite .positive significand exponent canonical.positive := by
  have exact := represents_exact (mantissa * factor)
  rw [← mul_div_cancel_right₀ ((mantissa * factor : Nat) : ℚ)
    (by positivity : (2 : ℚ) ^ (start + further) ≠ 0)] at exact
  exact roundWithAccuracy_eq stands canonical exact fine .positive

/-!
### Doubles that hold a natural number exactly
-/

/-- A double is a natural number, without a rest. -/
def HoldsExactly (number : Float) (value : Nat) : Prop :=
  ∃ significand exponent, Binary64.ofFloat number = .finite false significand exponent ∧
    (significand : ℚ) * 2 ^ exponent = value

/-- Whether a double that is no finer than its leading bit allows is a natural number. -/
def holdsExactly? (number : Float) (value : Nat) : Bool :=
  match Binary64.ofFloat number with
  | .finite false significand exponent =>
    decide (-52 ≤ exponent ∧ significand * 2 ^ (exponent + 52).toNat = value * 2 ^ 52)
  | _ => false

theorem holdsExactly_of_check {number : Float} {value : Nat} (checked : holdsExactly? number value = true) :
    HoldsExactly number value := by
  unfold holdsExactly? at checked
  split at checked
  · next significand exponent taken =>
      obtain ⟨fine, same⟩ := of_decide_eq_true checked
      refine ⟨significand, exponent, taken, ?_⟩
      have places : (((exponent + 52).toNat : Nat) : Int) = exponent + 52 := Int.toNat_of_nonneg (by omega)
      have sameRational : (significand : ℚ) * 2 ^ (exponent + 52).toNat = value * 2 ^ 52 := by
        exact_mod_cast same
      rw [← zpow_natCast, places, zpow_add₀ two_ne_zero, ← mul_assoc] at sameRational
      exact mul_right_cancel₀ (by positivity) sameRational
  · cases checked

theorem powersOfTen_checked : ∀ index : Fin Float.exactlyRepresentablePowersOfTen.size,
    holdsExactly? Float.exactlyRepresentablePowersOfTen[index] (10 ^ index.val) = true := by
  decide +kernel

/-- The powers of ten in the table are exact. -/
theorem holdsExactly_powerOfTen {places : Nat}
    (listed : places < Float.exactlyRepresentablePowersOfTen.size) :
    HoldsExactly Float.exactlyRepresentablePowersOfTen[places] (10 ^ places) :=
  holdsExactly_of_check (powersOfTen_checked ⟨places, listed⟩)

/-- Without its trailing places a natural number of at most 53 bits is canonical. -/
theorem canonical_shifted {number : Nat} (positive : 0 < number) (small : number < 2 ^ 53) :
    Binary64.Canonical (number <<< (52 - number.log2)) (number.log2 - 52) := by
  have bits : number.log2 ≤ 52 := Nat.le_of_lt_succ ((Nat.log2_lt positive.ne').mpr small)
  have lower : 2 ^ 52 ≤ number <<< (52 - number.log2) := by
    rw [Nat.shiftLeft_eq]
    calc 2 ^ 52 = 2 ^ number.log2 * 2 ^ (52 - number.log2) := by
          rw [← pow_add, Nat.add_sub_cancel' bits]
      _ ≤ number * 2 ^ (52 - number.log2) :=
          Nat.mul_le_mul_right _ (Nat.log2_self_le positive.ne')
  have upper : number <<< (52 - number.log2) < 2 ^ 53 := by
    rw [Nat.shiftLeft_eq]
    calc number * 2 ^ (52 - number.log2) < 2 ^ (number.log2 + 1) * 2 ^ (52 - number.log2) :=
          Nat.mul_lt_mul_of_pos_right Nat.lt_log2_self (by positivity)
      _ = 2 ^ 53 := by
          rw [← pow_add]
          congr 1
          omega
  exact ⟨by omega, upper, by omega, by omega, Or.inl lower⟩

theorem ofNat_eq {number : Nat} (positive : 0 < number) (small : number < 2 ^ 53) :
    UnpackedFloat.ofNat Format.binary64 number = .finite .positive (number <<< (52 - number.log2))
      (number.log2 - 52) (canonical_shifted positive small).positive := by
  have canonical := canonical_shifted positive small
  have bits : number.log2 ≤ 52 := Nat.le_of_lt_succ ((Nat.log2_lt positive.ne').mpr small)
  have order : compare (number : Int) 0 = .gt := compare_gt_iff_gt.mpr (by exact_mod_cast positive)
  have places : (0 - Format.binary64.targetExponent (totalExponent number 0)).toNat = 52 - number.log2 := by
    rw [targetExponent_eq, totalExponent]
    omega
  have lowered : (0 : Int) - (52 - number.log2 : Nat) = number.log2 - 52 := by omega
  simp only [UnpackedFloat.ofNat, UnpackedFloat.ofInt, UnpackedFloat.normalize, order, Int.toNat_natCast,
    UnpackedFloat.round, UnpackedFloat.decreaseExponent, places, lowered]
  have exact := represents_exact (number <<< (52 - number.log2))
  rw [← mul_div_cancel_right₀ ((number <<< (52 - number.log2) : Nat) : ℚ)
    (by positivity : (2 : ℚ) ^ ((number.log2 : Int) - 52) ≠ 0)] at exact
  exact roundWithAccuracy_eq (stands_self _ _) canonical exact
    (Or.inr (canonical.full.resolve_right (by omega))) .positive

/-- A natural number of at most 53 bits becomes a double without loss. -/
theorem holdsExactly_toFloat {number : Nat} (positive : 0 < number) (small : number < 2 ^ 53) :
    HoldsExactly number.toUInt64.toFloat number := by
  have canonical := canonical_shifted positive small
  have bits : number.log2 ≤ 52 := Nat.le_of_lt_succ ((Nat.log2_lt positive.ne').mpr small)
  have word : number.toUInt64.toNat = number := UInt64.toNat_ofNat_of_lt (lt_trans small (by decide))
  have packed : number.toUInt64.toFloat = .ofModel (.pack (.finite (signOf false)
      (number <<< (52 - number.log2)) (number.log2 - 52) canonical.positive)) := by
    show Float.ofModel (.pack (UnpackedFloat.ofNat Format.binary64 number.toUInt64.toNat)) = _
    rw [word, ofNat_eq positive small]
    rfl
  refine ⟨_, _, by rw [packed, ofFloat_pack false canonical], ?_⟩
  have none : ((52 - number.log2 : Nat) : Int) + ((number.log2 : Int) - 52) = 0 := by omega
  rw [Nat.shiftLeft_eq]
  push_cast
  rw [mul_assoc, ← zpow_natCast, ← zpow_add₀ two_ne_zero, none, zpow_zero, mul_one]

/-- A double that holds a positive number exactly, as the model has it. -/
theorem HoldsExactly.unpack {number : Float} {value : Nat} (holds : HoldsExactly number value)
    (positive : 0 < value) : ∃ significand exponent, ∃ some : 0 < significand,
      number.toModel.unpack = .finite .positive significand exponent some ∧
        (significand : ℚ) * 2 ^ exponent = value := by
  obtain ⟨significand, exponent, taken, same⟩ := holds
  have some : 0 < significand := by
    apply Nat.pos_of_ne_zero
    intro zero
    rw [zero, Nat.cast_zero, zero_mul] at same
    exact absurd (Nat.cast_eq_zero.mp same.symm) positive.ne'
  refine ⟨significand, exponent, some, ?_, same⟩
  rw [unpack_toModel, taken, Binary64.unpacked, dif_pos some]
  rfl

/-- One division of two exact doubles. -/
theorem HoldsExactly.div {number divisor : Float} {value power : Nat} (holds : HoldsExactly number value)
    (holdsPower : HoldsExactly divisor power) (positive : 0 < value) (divisible : 0 < power)
    {significand : Nat} {exponent : Int} (canonical : Binary64.Canonical significand exponent)
    (stands : Stands significand exponent (value / power)) :
    number / divisor = .ofModel (.pack (.finite .positive significand exponent canonical.positive)) := by
  obtain ⟨mantissa, start, some, unpacked, same⟩ := holds.unpack positive
  obtain ⟨mantissaOfPower, further, someOfPower, unpackedPower, samePower⟩ := holdsPower.unpack divisible
  rw [← same, ← samePower] at stands
  show Float.ofModel (.pack (UnpackedFloat.div Format.binary64 number.toModel.unpack
    divisor.toModel.unpack)) = _
  rw [unpacked, unpackedPower, div_eq canonical some someOfPower stands]

/-!
### Decimals
-/

/-- A decimal that stands for a double is large enough for the slow way to compute with it. -/
theorem places_le_of_stands {significand : Nat} {exponent : Int}
    (canonical : Binary64.Canonical significand exponent) {digits places : Nat}
    (stands : Stands significand exponent (digits / 10 ^ places)) : places ≤ 2048 + digits.log2 := by
  by_contra deep
  have powers : (2 : ℚ) ^ (2049 + digits.log2) ≤ 10 ^ places :=
    calc (2 : ℚ) ^ (2049 + digits.log2) ≤ 2 ^ places := pow_le_pow_right₀ one_le_two (by omega)
      _ ≤ 10 ^ places := pow_le_pow_left₀ zero_le_two (by norm_num) places
  have whole : (1 : ℚ) ≤ significand := by exact_mod_cast canonical.positive
  have low : (2 : ℚ) ^ (-1075 : Int) ≤ digits / 10 ^ places :=
    calc (2 : ℚ) ^ (-1075 : Int) = 1 / 2 * 2 ^ (-1074 : Int) := by
          rw [(by norm_num : (-1075 : Int) = -1074 - 1), zpow_sub_one₀ two_ne_zero]
          ring
      _ ≤ 1 / 2 * 2 ^ exponent :=
          mul_le_mul_of_nonneg_left (zpow_le_zpow_right₀ one_le_two canonical.least) (by norm_num)
      _ ≤ digits / 10 ^ places := stands.le_of_le (by linarith)
  have high : (digits : ℚ) / 10 ^ places < 2 ^ (-2048 : Int) := by
    rw [div_lt_iff₀ (by positivity)]
    calc (digits : ℚ) < 2 ^ (digits.log2 + 1) := by exact_mod_cast Nat.lt_log2_self
      _ = 2 ^ (-2048 : Int) * 2 ^ (2049 + digits.log2) := by
          rw [← zpow_natCast, ← zpow_natCast, ← zpow_add₀ two_ne_zero]
          congr 1
          push_cast
          ring
      _ ≤ 2 ^ (-2048 : Int) * 10 ^ places := mul_le_mul_of_nonneg_left powers (by positivity)
  have order : (2 : ℚ) ^ (-2048 : Int) < 2 ^ (-1075 : Int) := zpow_lt_zpow_right₀ one_lt_two (by norm_num)
  linarith

/-- The slow way, with the digits and the power of ten as natural numbers of any size. -/
theorem unpackedOfScientific_eq {significand : Nat} {exponent : Int}
    (canonical : Binary64.Canonical significand exponent) {digits places : Nat} (positive : 0 < digits)
    (stands : Stands significand exponent (digits / 10 ^ places)) :
    UnpackedFloat.ofScientific Format.binary64 digits (-places) =
      .finite .positive significand exponent canonical.positive := by
  have notHuge : ¬ (-(places : Int) > 2 ^ Format.binary64.exponentBits) := by
    have width : (2 : Int) ^ Format.binary64.exponentBits = 2048 := rfl
    omega
  have notTiny : ¬ (-(places : Int) < -((2 ^ Format.binary64.exponentBits : Int) + digits.log2)) := by
    have width : (2 : Int) ^ Format.binary64.exponentBits = 2048 := rfl
    have bounded := places_le_of_stands canonical stands
    omega
  rw [UnpackedFloat.ofScientific, dif_neg positive.ne', if_neg notHuge, if_neg notTiny]
  rcases Nat.eq_zero_or_pos places with none | some
  · -- without places the digits are multiplied by one
    have value : (digits : ℚ) / 10 ^ places =
        (digits <<< Format.binary64.mantissaBits * 10 ^ (-(places : Int)).toNat : Nat) *
          2 ^ (-(Format.binary64.mantissaBits : Int) + 0) := by
      have width : Format.binary64.mantissaBits = 53 := rfl
      rw [none, width, Nat.shiftLeft_eq]
      norm_num
      ring
    have fine : FineEnough (digits <<< Format.binary64.mantissaBits * 10 ^ (-(places : Int)).toNat)
        (-(Format.binary64.mantissaBits : Int) + 0) := by
      have width : Format.binary64.mantissaBits = 53 := rfl
      right
      rw [none, width, Nat.shiftLeft_eq]
      norm_num
      omega
    rw [if_pos (by omega)]
    rw [value] at stands
    exact mul_eq canonical _ _ stands fine
  · have power : 0 < 10 ^ (- -(places : Int)).toNat := by positivity
    have value : (digits : ℚ) / 10 ^ places = digits * 2 ^ (0 : Int) /
        ((10 ^ (- -(places : Int)).toNat : Nat) * 2 ^ (0 : Int)) := by
      rw [neg_neg, Int.toNat_natCast]
      push_cast
      ring
    rw [if_neg (by omega)]
    rw [value] at stands
    exact div_eq canonical positive power stands

/-- A decimal that stands for a double becomes that double. -/
theorem ofScientific_eq {significand : Nat} {exponent : Int}
    (canonical : Binary64.Canonical significand exponent) {digits places : Nat}
    (stands : Stands significand exponent (digits / 10 ^ places)) :
    Float.ofScientific digits true places =
      .ofModel (.pack (.finite .positive significand exponent canonical.positive)) := by
  have positive : 0 < digits := by
    apply Nat.pos_of_ne_zero
    intro zero
    have value := stands.pos canonical
    rw [zero, Nat.cast_zero, zero_div] at value
    exact lt_irrefl 0 value
  have power : 0 < 10 ^ places := by positivity
  have powerCast : ((10 ^ places : Nat) : ℚ) = 10 ^ places := by push_cast; rfl
  unfold Float.ofScientific
  split
  · next fast =>
      have listed : places < Float.exactlyRepresentablePowersOfTen.size := by
        have size : Float.exactlyRepresentablePowersOfTen.size = 23 := rfl
        omega
      rw [← powerCast] at stands
      exact (holdsExactly_toFloat positive fast.1).div (holdsExactly_powerOfTen listed) positive power
        canonical stands
  · next slow =>
      show Float.ofModel (.pack (UnpackedFloat.ofScientific Format.binary64 digits (Int.negOfNat places))) = _
      rw [Int.negOfNat_eq, Int.ofNat_eq_natCast, unpackedOfScientific_eq canonical positive stands]

/-!
### Always a number
-/

theorem roundWithAccuracy_ne_nan (sign : Sign) (mantissa : Nat) (exponent : Int) (accuracy : Accuracy) :
    roundWithAccuracy Format.binary64 sign mantissa exponent accuracy ≠ .notANumber := by
  simp only [roundWithAccuracy]
  split <;> simp

theorem unpackedOfScientific_ne_nan (digits : Nat) (exponent : Int) :
    UnpackedFloat.ofScientific Format.binary64 digits exponent ≠ .notANumber := by
  unfold UnpackedFloat.ofScientific
  split
  · simp
  · split
    · simp
    · split
      · simp
      · split
        · exact roundWithAccuracy_ne_nan _ _ _ _
        · exact roundWithAccuracy_ne_nan _ _ _ _

/-- What becomes of digits and a power of ten is a number, if only an infinite one. -/
theorem ofScientific_ne_nan (digits places : Nat) :
    Binary64.ofFloat (Float.ofScientific digits true places) ≠ .nan := by
  unfold Float.ofScientific
  split
  · next fast =>
      have listed : places < Float.exactlyRepresentablePowersOfTen.size := by
        have size : Float.exactlyRepresentablePowersOfTen.size = 23 := rfl
        omega
      obtain ⟨power, further, some, unpackedPower, _⟩ :=
        (holdsExactly_powerOfTen listed).unpack (by positivity)
      apply ofFloat_pack_ne_nan
      rw [unpackedPower]
      rcases Nat.eq_zero_or_pos digits with none | positive
      · rw [none]
        exact fun same => nomatch same
      · obtain ⟨mantissa, start, _, unpacked, _⟩ := (holdsExactly_toFloat positive fast.1).unpack positive
        rw [unpacked]
        exact roundWithAccuracy_ne_nan _ _ _ _
  · exact ofFloat_pack_ne_nan (unpackedOfScientific_ne_nan _ _)

end LexLisp
