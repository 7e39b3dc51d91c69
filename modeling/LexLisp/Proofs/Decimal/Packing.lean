/-
Module: LexLisp.Proofs.Decimal.Packing
Purpose: The bits of doubles. The reading of a bit pattern by arithmetic is the one that the model of
  floating-point numbers works with, and the model packs a canonical significand and exponent into the one pattern
  that is read back as them.
Main exports: Binary64.unpacked, unpack_toModel, eq_finiteBits_of_ofBits, ofFloat_pack, eq_pack_of_ofFloat,
  beq_self, beq_zeros
-/
import LexLisp.Proofs.Decimal.Rounding

namespace LexLisp

open Float.Model
open Float.Model.UnpackedFloat

/-!
### Reading
-/

/-- The sign of a double. -/
def signOf (negative : Bool) : Sign :=
  if negative then .negative else .positive

/-- A double that is taken apart, as the model has it. -/
def Binary64.unpacked : Binary64 → UnpackedFloat
  | .nan => .notANumber
  | .infinite negative => .infinity (signOf negative)
  | .finite negative significand exponent =>
    if positive : 0 < significand then .finite (signOf negative) significand exponent positive
    else .zero (signOf negative)

theorem toNat_unpackMantissa (bits : BitVec 64) :
    (@unpackMantissa Format.binary64 bits).toNat = bits.toNat % 2 ^ 52 := by
  simp [unpackMantissa]

theorem toNat_unpackExponent (bits : BitVec 64) :
    (@unpackExponent Format.binary64 bits).toNat = bits.toNat / 2 ^ 52 % 2048 := by
  simp [unpackExponent, Nat.shiftRight_eq_div_pow]

theorem ofBitVec_unpackSign (bits : BitVec 64) :
    Sign.ofBitVec (@unpackSign Format.binary64 bits) = signOf (bits.toNat / 2 ^ 63 % 2 == 1) := by
  have placed : (@unpackSign Format.binary64 bits).toNat = bits.toNat / 2 ^ 63 % 2 := by
    simp [unpackSign, Nat.shiftRight_eq_div_pow]
  simp only [Sign.ofBitVec, signOf, ← BitVec.toNat_inj, placed]
  rcases Nat.mod_two_eq_zero_or_one (bits.toNat / 2 ^ 63) with zero | one
  · rw [zero]
    rfl
  · rw [one]
    rfl

/-- The model reads a bit pattern as the arithmetic does. -/
theorem unpack_eq (bits : BitVec 64) :
    UnpackedFloat.unpack Format.binary64 bits = (Binary64.ofBits bits.toNat).unpacked := by
  have mantissa := toNat_unpackMantissa bits
  have exponent := toNat_unpackExponent bits
  have infinite : (@unpackExponent Format.binary64 bits = -1#_) ↔ bits.toNat / 2 ^ 52 % 2048 = 2047 := by
    rw [← BitVec.toNat_inj, exponent]
    rfl
  have none : (@unpackMantissa Format.binary64 bits = 0#_) ↔ bits.toNat % 2 ^ 52 = 0 := by
    rw [← BitVec.toNat_inj, mantissa]
    rfl
  have subnormal : (@unpackExponent Format.binary64 bits = 0#_) ↔ bits.toNat / 2 ^ 52 % 2048 = 0 := by
    rw [← BitVec.toNat_inj, exponent]
    rfl
  simp only [UnpackedFloat.unpack, Binary64.ofBits, ofBitVec_unpackSign, twoTo, Nat.pow_eq, infinite, none,
    subnormal, mantissa, exponent]
  by_cases top : bits.toNat / 2 ^ 52 % 2048 = 2047
  · by_cases zero : bits.toNat % 2 ^ 52 = 0
    · simp only [top, zero, if_true, Binary64.unpacked]
    · simp only [top, zero, if_true, if_false, Binary64.unpacked]
  · simp only [top, if_false]
    by_cases bottom : bits.toNat / 2 ^ 52 % 2048 = 0
    · simp only [bottom, if_true, Binary64.unpacked]
      by_cases zero : bits.toNat % 2 ^ 52 = 0
      · simp only [zero, dite_true, lt_irrefl, dite_false]
      · simp only [zero, dite_false, Nat.pos_of_ne_zero zero, dite_true]
        rfl
    · have leading : (1#1 ++ @unpackMantissa Format.binary64 bits).toNat = 2 ^ 52 + bits.toNat % 2 ^ 52 := by
        rw [BitVec.toNat_append, ← Nat.shiftLeft_add_eq_or_of_lt (BitVec.isLt _), mantissa]
        rfl
      have positive : 0 < 2 ^ 52 + bits.toNat % 2 ^ 52 := by positivity
      simp only [bottom, if_false, Binary64.unpacked, positive, dite_true, leading]
      rfl

/-- The model of a double reads as the double does when it is taken apart. -/
theorem unpack_toModel (number : Float) : number.toModel.unpack = (Binary64.ofFloat number).unpacked :=
  unpack_eq _

/-!
### Patterns of finite doubles
-/

/-- The pattern with these fields. -/
def fields (negative : Bool) (biased fraction : Nat) : Nat :=
  negative.toNat * 2 ^ 63 + biased * 2 ^ 52 + fraction

/-- Every pattern of 64 bits has fields. -/
theorem exists_fields {bits : Nat} (bounded : bits < 2 ^ 64) :
    ∃ negative biased fraction, biased < 2048 ∧ fraction < 2 ^ 52 ∧
      bits = fields negative biased fraction := by
  refine ⟨bits / 2 ^ 63 % 2 == 1, bits / 2 ^ 52 % 2048, bits % 2 ^ 52, Nat.mod_lt _ (by norm_num),
    Nat.mod_lt _ (by norm_num), ?_⟩
  unfold fields
  rcases Nat.mod_two_eq_zero_or_one (bits / 2 ^ 63) with zero | one
  · rw [zero]
    simp only [Nat.reduceBEq, Bool.toNat_false]
    omega
  · rw [one]
    simp only [Nat.reduceBEq, Bool.toNat_true]
    omega

/-- The fields of a pattern are where they are looked for. -/
theorem fields_parts (negative : Bool) {biased fraction : Nat} (early : biased < 2048)
    (small : fraction < 2 ^ 52) :
    (fields negative biased fraction / 2 ^ 63 % 2 == 1) = negative ∧
      fields negative biased fraction / 2 ^ 52 % 2048 = biased ∧
        fields negative biased fraction % 2 ^ 52 = fraction := by
  have sign : negative.toNat < 2 := Bool.toNat_lt negative
  unfold fields
  refine ⟨?_, by omega, by omega⟩
  have top : (negative.toNat * 2 ^ 63 + biased * 2 ^ 52 + fraction) / 2 ^ 63 % 2 = negative.toNat := by
    omega
  rw [top]
  cases negative <;> rfl

theorem ofBits_fields_normal (negative : Bool) {biased fraction : Nat} (small : fraction < 2 ^ 52)
    (normal : 0 < biased) (finite : biased < 2047) :
    Binary64.ofBits (fields negative biased fraction) =
      .finite negative (2 ^ 52 + fraction) (biased - 1075) := by
  obtain ⟨sign, exponent, rest⟩ := fields_parts negative (by omega : biased < 2048) small
  simp only [Binary64.ofBits, twoTo, Nat.pow_eq, sign, exponent, rest, finite.ne, normal.ne', if_false]

theorem ofBits_fields_subnormal (negative : Bool) {fraction : Nat} (small : fraction < 2 ^ 52) :
    Binary64.ofBits (fields negative 0 fraction) = .finite negative fraction (-1074) := by
  obtain ⟨sign, exponent, rest⟩ := fields_parts negative (by omega : 0 < 2048) small
  simp only [Binary64.ofBits, twoTo, Nat.pow_eq, sign, exponent, rest]
  rfl

theorem ofBits_fields_top (negative : Bool) {fraction : Nat} (small : fraction < 2 ^ 52) :
    Binary64.ofBits (fields negative 2047 fraction) = if fraction = 0 then .infinite negative else .nan := by
  obtain ⟨sign, exponent, rest⟩ := fields_parts negative (by omega : 2047 < 2048) small
  simp only [Binary64.ofBits, twoTo, Nat.pow_eq, sign, exponent, rest, if_true]

/-- The pattern of a finite double, from its significand and exponent. -/
def finiteBits (negative : Bool) (significand : Nat) (exponent : Int) : Nat :=
  if 2 ^ 52 ≤ significand then fields negative (exponent + 1075).toNat (significand - 2 ^ 52)
  else fields negative 0 significand

/-- A pattern that is read as a finite double is the one pattern of that double. -/
theorem eq_finiteBits_of_ofBits {bits : Nat} (bounded : bits < 2 ^ 64) {negative : Bool}
    {significand : Nat} {exponent : Int}
    (taken : Binary64.ofBits bits = .finite negative significand exponent) :
    bits = finiteBits negative significand exponent ∧
      (significand = 0 ∨ Binary64.Canonical significand exponent) := by
  obtain ⟨sign, biased, fraction, early, small, rfl⟩ := exists_fields bounded
  by_cases top : biased = 2047
  · rw [top, ofBits_fields_top sign small] at taken
    split at taken <;> cases taken
  · by_cases bottom : biased = 0
    · rw [bottom, ofBits_fields_subnormal sign small] at taken
      cases taken
      rw [finiteBits, if_neg (Nat.not_le.mpr small), bottom]
      refine ⟨rfl, ?_⟩
      rcases Nat.eq_zero_or_pos significand with zero | positive
      · exact Or.inl zero
      · exact Or.inr ⟨positive, by omega, le_rfl, by norm_num, Or.inr rfl⟩
    · rw [ofBits_fields_normal sign small (Nat.pos_of_ne_zero bottom) (by omega)] at taken
      cases taken
      have back : ((biased : Int) - 1075 + 1075).toNat = biased := by omega
      rw [finiteBits, if_pos (Nat.le_add_right _ _), Nat.add_sub_cancel_left, back]
      exact ⟨rfl, Or.inr ⟨by omega, by omega, by omega, by omega, Or.inl (Nat.le_add_right _ _)⟩⟩

theorem ofBits_finiteBits (negative : Bool) {significand : Nat} {exponent : Int}
    (canonical : Binary64.Canonical significand exponent) :
    Binary64.ofBits (finiteBits negative significand exponent) =
      .finite negative significand exponent := by
  obtain ⟨positive, bounded, least, greatest, full⟩ := canonical
  unfold finiteBits
  split
  · next normal =>
      have whole : 2 ^ 52 + (significand - 2 ^ 52) = significand := by omega
      have unbiased : ((exponent + 1075).toNat : Int) - 1075 = exponent := by omega
      rw [ofBits_fields_normal negative (by omega) (by omega) (by omega), whole, unbiased]
  · next small =>
      rw [ofBits_fields_subnormal negative (by omega), full.resolve_left small]

/-!
### Packing
-/

theorem toNat_packComponents (negative : Bool) (exponent : BitVec 11) (mantissa : BitVec 52) :
    (packComponents Format.binary64 (signOf negative) exponent mantissa).toNat =
      fields negative exponent.toNat mantissa.toNat := by
  unfold packComponents
  rw [BitVec.toNat_append, BitVec.toNat_append, ← Nat.shiftLeft_add_eq_or_of_lt (BitVec.isLt _),
    ← Nat.shiftLeft_add_eq_or_of_lt (BitVec.isLt _)]
  cases negative with
  | false => simp [signOf, Sign.toBitVec, fields, Nat.shiftLeft_eq]
  | true =>
      simp [signOf, Sign.toBitVec, fields, Nat.shiftLeft_eq]
      omega

/-- A canonical significand and exponent are packed into their pattern. -/
theorem toNat_pack (negative : Bool) {significand : Nat} {exponent : Int}
    (canonical : Binary64.Canonical significand exponent) :
    (UnpackedFloat.pack Format.binary64
      (.finite (signOf negative) significand exponent canonical.positive)).toNat =
        finiteBits negative significand exponent := by
  obtain ⟨positive, bounded, least, greatest, full⟩ := canonical
  have bits : 2 ^ 52 ≤ significand ↔ significand.log2 + 1 = Format.binary64.mantissaBits := by
    have atMost := (Nat.log2_lt positive.ne').mpr bounded
    rw [← Nat.le_log2 positive.ne']
    have width : Format.binary64.mantissaBits = 53 := rfl
    omega
  have noOverflow : ¬ 2 ^ Format.binary64.exponentBits ≤ (exponent + 1075).toNat + 1 := by
    have width : Format.binary64.exponentBits = 11 := rfl
    rw [width]
    omega
  have bias : exponent + Format.binary64.exponentBias + Format.binary64.mantissaBitsWithoutImplicit =
      exponent + 1075 := by
    have both : (Format.binary64.exponentBias : Int) + Format.binary64.mantissaBitsWithoutImplicit = 1075 := rfl
    rw [add_assoc, both]
  simp only [UnpackedFloat.pack, finiteBits, bias, if_neg noOverflow, bits]
  split
  · next normal =>
      have normal := bits.mpr normal
      have exponentField : (BitVec.ofNat 11 (exponent + 1075).toNat).toNat = (exponent + 1075).toNat := by
        rw [BitVec.toNat_ofNat, Nat.mod_eq_of_lt (by omega)]
      have mantissaField : (BitVec.ofNat 52 significand).toNat = significand - 2 ^ 52 := by
        rw [BitVec.toNat_ofNat]
        omega
      rw [toNat_packComponents, exponentField, mantissaField]
  · next small =>
      have small := mt bits.mp small
      have mantissaField : (BitVec.ofNat 52 significand).toNat = significand := by
        rw [BitVec.toNat_ofNat, Nat.mod_eq_of_lt (by omega)]
      rw [toNat_packComponents, mantissaField]
      rfl

/-- The model packs a canonical significand and exponent into the double that is taken apart into them. -/
theorem ofFloat_pack (negative : Bool) {significand : Nat} {exponent : Int}
    (canonical : Binary64.Canonical significand exponent) :
    Binary64.ofFloat (.ofModel (.pack (.finite (signOf negative) significand exponent canonical.positive))) =
      .finite negative significand exponent := by
  have bits := toNat_pack negative canonical
  rw [← ofBits_finiteBits negative canonical, ← bits]
  rfl

/-- A double that is taken apart is packed again. -/
theorem eq_pack_of_ofFloat {number : Float} {negative : Bool} {significand : Nat} {exponent : Int}
    (taken : Binary64.ofFloat number = .finite negative significand exponent)
    (canonical : Binary64.Canonical significand exponent) :
    number = .ofModel (.pack (.finite (signOf negative) significand exponent canonical.positive)) := by
  have bits := (eq_finiteBits_of_ofBits (UInt64.toNat_lt _) taken).1
  rw [← toNat_pack negative canonical] at bits
  exact Float.toBits_inj.mp (UInt64.toNat_inj.mp bits)

theorem unpack_pack_finite (negative : Bool) {significand : Nat} {exponent : Int}
    (canonical : Binary64.Canonical significand exponent) :
    (Float.Model.pack (.finite (signOf negative) significand exponent canonical.positive)).unpack =
      .finite (signOf negative) significand exponent canonical.positive := by
  have unpacked := unpack_toModel
    (.ofModel (.pack (.finite (signOf negative) significand exponent canonical.positive)))
  rw [ofFloat_pack negative canonical, Binary64.unpacked, dif_pos canonical.positive] at unpacked
  exact unpacked

/-- The negative of a double is the double with the other sign. -/
theorem neg_pack_finite {significand : Nat} {exponent : Int}
    (canonical : Binary64.Canonical significand exponent) :
    -(Float.ofModel (.pack (.finite .positive significand exponent canonical.positive))) =
      .ofModel (.pack (.finite .negative significand exponent canonical.positive)) := by
  have unpacked : (Float.Model.pack (.finite .positive significand exponent canonical.positive)).unpack =
      .finite .positive significand exponent canonical.positive := unpack_pack_finite false canonical
  have negated : -(Float.Model.pack (.finite .positive significand exponent canonical.positive)) =
      .pack (.finite .negative significand exponent canonical.positive) := by
    show Float.Model.neg _ = _
    rw [Float.Model.neg, unpacked]
    rfl
  show Float.ofModel (-_) = _
  rw [negated]

/-!
### Numbers
-/

theorem unpack_packComponents_ne_nan (sign : Sign) {exponent : BitVec 11} {mantissa : BitVec 52}
    (number : exponent = -1#11 → mantissa = 0#52) :
    UnpackedFloat.unpack Format.binary64 (packComponents Format.binary64 sign exponent mantissa) ≠
      .notANumber := by
  simp only [UnpackedFloat.unpack, unpackMantissa_packComponents, unpackExponent_packComponents]
  split
  · next top =>
      rw [if_pos (number top)]
      simp
  · split
    · split <;> simp
    · simp

/-- What is packed as a number is read as one. -/
theorem unpack_pack_ne_nan {unpacked : UnpackedFloat} (number : unpacked ≠ .notANumber) :
    UnpackedFloat.unpack Format.binary64 (UnpackedFloat.pack Format.binary64 unpacked) ≠ .notANumber := by
  cases unpacked with
  | notANumber => exact absurd rfl number
  | infinity sign => exact unpack_packComponents_ne_nan sign fun _ => rfl
  | zero sign => exact unpack_packComponents_ne_nan sign fun top => absurd top (by decide)
  | finite sign mantissa exponent positive =>
      simp only [UnpackedFloat.pack]
      split
      · exact unpack_packComponents_ne_nan sign fun _ => rfl
      · next noOverflow =>
          split
          · apply unpack_packComponents_ne_nan sign
            intro top
            have full := congrArg BitVec.toNat top
            have width : 2 ^ Format.binary64.exponentBits = 2048 := rfl
            rw [BitVec.toNat_ofNat, width, Nat.mod_eq_of_lt (by omega)] at full
            have ones : (-1#11).toNat = 2047 := rfl
            exact absurd (full.trans ones) (by omega)
          · exact unpack_packComponents_ne_nan sign fun top => absurd top (by decide)

theorem ofFloat_pack_ne_nan {unpacked : UnpackedFloat} (number : unpacked ≠ .notANumber) :
    Binary64.ofFloat (.ofModel (.pack unpacked)) ≠ .nan := by
  intro taken
  have same := unpack_toModel (.ofModel (.pack unpacked))
  rw [taken] at same
  exact unpack_pack_ne_nan number same

/-- The negative of a number is a number. -/
theorem ofFloat_neg_ne_nan {number : Float} (isNumber : Binary64.ofFloat number ≠ .nan) :
    Binary64.ofFloat (-number) ≠ .nan := by
  apply ofFloat_pack_ne_nan
  rw [unpack_toModel]
  cases taken : Binary64.ofFloat number with
  | nan => exact absurd taken isNumber
  | infinite negative => simp [Binary64.unpacked, UnpackedFloat.neg]
  | finite negative significand exponent =>
      simp only [Binary64.unpacked]
      split <;> simp [UnpackedFloat.neg]

/-!
### Comparison
-/

/-- Doubles are compared through the model. -/
theorem beq_eq (first second : Float) :
    (first == second) = UnpackedFloat.beq first.toModel.unpack second.toModel.unpack := rfl

/-- A double that is a number equals itself. -/
theorem beq_self {number : Float} (isNumber : Binary64.ofFloat number ≠ .nan) :
    (number == number) = true := by
  apply Float.beq_self_iff.mpr
  intro same
  rw [same] at isNumber
  exact isNumber (by decide)

/-- The zeros equal each other. -/
theorem beq_zeros {first second : Float} {negative other : Bool} {exponent further : Int}
    (one : Binary64.ofFloat first = .finite negative 0 exponent)
    (two : Binary64.ofFloat second = .finite other 0 further) : (first == second) = true := by
  rw [beq_eq, unpack_toModel, unpack_toModel, one, two]
  rfl

end LexLisp
