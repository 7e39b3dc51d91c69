/-
Module: LexLisp.Proofs.Decimal.Display
Purpose: Printed numbers are read back. The text of a finite number is a numeral: digits, and a point only with
  digits on both sides. The numeral has the value of the decimal that was printed, which stands for the number,
  so reading gives the same double again; of the two zeros, which print alike, it gives the positive one. The
  texts of all other doubles are no numerals.
Main exports: Numeral.parse?_characters, positionalNumeral, value_positionalNumeral, Shown, shown_displayNumber,
  text_ofAtom_displayNumber, alike_ofAtom_displayNumber
-/
import LexLisp.Expr.Printer
import LexLisp.Proofs.Decimal.Scientific
import LexLisp.Proofs.Decimal.Standing
import LexLisp.Surface.Numeral

namespace LexLisp

/-!
### Numerals and their characters
-/

namespace Numeral

/-- A numeral as it is written. -/
def characters (numeral : Numeral) : List Char :=
  (if numeral.negative then ['-'] else []) ++
    (numeral.whole ++ if numeral.fraction = [] then [] else '.' :: numeral.fraction)

/-- A numeral is made of digits, and has some before the point. -/
structure WellFormed (numeral : Numeral) : Prop where
  some : numeral.whole ≠ []
  whole : ∀ c ∈ numeral.whole, c.isDigit = true
  fraction : ∀ c ∈ numeral.fraction, c.isDigit = true

/-- Digits before something else, taken apart. -/
theorem span_digits (digits rest : List Char) (whole : ∀ c ∈ digits, c.isDigit = true)
    (ends : ∀ c ∈ rest.head?, c.isDigit = false) :
    (digits ++ rest).takeWhile Char.isDigit = digits ∧ (digits ++ rest).dropWhile Char.isDigit = rest := by
  rw [List.takeWhile_append_of_pos whole, List.dropWhile_append_of_pos whole]
  cases rest with
  | nil => simp
  | cons c rest =>
      have stop := ends c rfl
      simp [stop]

theorem parseMagnitude?_characters {numeral : Numeral} (wellFormed : numeral.WellFormed) :
    parseMagnitude? numeral.negative
      (numeral.whole ++ if numeral.fraction = [] then [] else '.' :: numeral.fraction) = some numeral := by
  obtain ⟨negative, whole, fraction⟩ := numeral
  have isSome : whole.isEmpty = false := List.isEmpty_eq_false_iff.mpr wellFormed.some
  cases fraction with
  | nil =>
      obtain ⟨taken, dropped⟩ := span_digits whole [] wellFormed.whole fun c member => nomatch member
      simp only [parseMagnitude?, if_true, taken, dropped, isSome, Bool.false_eq_true, if_false]
  | cons c digits =>
      obtain ⟨taken, dropped⟩ := span_digits whole ('.' :: c :: digits) wellFormed.whole (by simp)
      have all : (c :: digits).all Char.isDigit = true := List.all_eq_true.mpr wellFormed.fraction
      simp only [parseMagnitude?, reduceCtorEq, if_false, taken, dropped, isSome, Bool.false_eq_true, all]
      simp

/-- A numeral is read as it is written. -/
theorem parse?_characters {numeral : Numeral} (wellFormed : numeral.WellFormed) :
    parse? numeral.characters = some numeral := by
  have magnitude := parseMagnitude?_characters wellFormed
  unfold characters
  cases sign : numeral.negative with
  | true =>
      rw [sign] at magnitude
      exact magnitude
  | false =>
      rw [sign] at magnitude
      unfold parse?
      split
      · next others same =>
          -- a numeral without a sign begins with a digit
          cases digits : numeral.whole with
          | nil => exact absurd digits wellFormed.some
          | cons c rest =>
              have digit := wellFormed.whole c (by rw [digits]; exact List.mem_cons_self)
              rw [digits] at same
              obtain ⟨minus, _⟩ := List.cons.inj same
              rw [minus] at digit
              exact absurd digit (by decide)
      · exact magnitude

end Numeral

/-!
### Positional writing
-/

open NumberStyle

/-- The numeral of a decimal in positional writing. -/
def positionalNumeral (negative : Bool) (decimal : Decimal) : Numeral :=
  let digits := Nat.toDigits 10 decimal.digits
  let whole := (digits.length : Int) + decimal.exponent
  if 0 ≤ decimal.exponent then ⟨negative, digits ++ List.replicate decimal.exponent.toNat '0', []⟩
  else if 0 < whole then ⟨negative, digits.take whole.toNat, digits.drop whole.toNat⟩
  else ⟨negative, ['0'], List.replicate (-whole).toNat '0' ++ digits⟩

section Positional

variable (negative : Bool) (decimal : Decimal)

theorem isDigit_toDigits (number : Nat) : ∀ c ∈ Nat.toDigits 10 number, c.isDigit = true :=
  fun _ member => Nat.isDigit_of_mem_toDigits (by decide) (by decide) member

theorem isDigit_zeros (count : Nat) : ∀ c ∈ List.replicate count '0', c.isDigit = true := by
  intro c member
  rw [(List.mem_replicate.mp member).2]
  rfl

theorem wellFormed_positionalNumeral : (positionalNumeral negative decimal).WellFormed := by
  have digits := isDigit_toDigits decimal.digits
  unfold positionalNumeral
  simp only
  split
  · refine ⟨by simp, ?_, fun c member => nomatch member⟩
    intro c member
    rcases List.mem_append.mp member with inDigits | inZeros
    · exact digits c inDigits
    · exact isDigit_zeros _ c inZeros
  · split
    · next inside =>
        refine ⟨?_, fun c member => digits c (List.mem_of_mem_take member),
          fun c member => digits c (List.mem_of_mem_drop member)⟩
        intro empty
        rcases List.take_eq_nil_iff.mp empty with none | none
        · omega
        · exact Nat.toDigits_ne_nil none
    · refine ⟨List.cons_ne_nil _ _, by simp, ?_⟩
      intro c member
      rcases List.mem_append.mp member with inZeros | inDigits
      · exact isDigit_zeros _ c inZeros
      · exact digits c inDigits

/-- The digits of a positional numeral count what they should. -/
theorem natOfDigits_positionalNumeral :
    Numeral.natOfDigits ((positionalNumeral negative decimal).whole ++
      (positionalNumeral negative decimal).fraction) = decimal.digits * 10 ^ decimal.exponent.toNat := by
  have digits : Nat.ofDigitChars 10 (Nat.toDigits 10 decimal.digits) 0 = decimal.digits :=
    Nat.ofDigitChars_ten_toDigits
  rw [Numeral.natOfDigits, ← Nat.ofDigitChars_eq_foldl]
  unfold positionalNumeral
  simp only
  split
  · rw [List.append_nil, Nat.ofDigitChars_append, digits, Nat.ofDigitChars_replicate_zero, Nat.mul_comm]
  · next negativeExponent =>
      have none : decimal.exponent.toNat = 0 := by omega
      rw [none, pow_zero, mul_one]
      split
      · rw [List.take_append_drop, digits]
      · rw [Nat.ofDigitChars_append, Nat.ofDigitChars_append]
        simp [Nat.ofDigitChars_cons, digits]

theorem length_fraction_positionalNumeral :
    (positionalNumeral negative decimal).fraction.length = (-decimal.exponent).toNat := by
  have some : 0 < (Nat.toDigits 10 decimal.digits).length := Nat.length_toDigits_pos
  unfold positionalNumeral
  simp only
  split
  · simp only [List.length_nil]
    omega
  · split
    · rw [List.length_drop]
      omega
    · rw [List.length_append, List.length_replicate]
      omega

/-- A decimal is written as its numeral. -/
theorem toList_positionalText (style : NumberStyle) (plain : style.wholeFraction = false) :
    (style.positionalText decimal).toList = (positionalNumeral false decimal).characters := by
  unfold positionalText positionalNumeral Numeral.characters
  simp only [plain]
  split
  · simp [zeros]
  · split
    · next inside =>
        have rest : (Nat.toDigits 10 decimal.digits).drop
            ((Nat.toDigits 10 decimal.digits).length + decimal.exponent).toNat ≠ [] := by
          rw [ne_eq, List.drop_eq_nil_iff]
          omega
        simp [rest]
    · simp [zeros]

end Positional

/-- A numeral that stands for a double is read as that double. -/
theorem value_positionalNumeral (negative : Bool) {decimal : Decimal} {significand : Nat} {exponent : Int}
    (canonical : Binary64.Canonical significand exponent)
    (stands : Stands significand exponent (decimal.digits * 10 ^ decimal.exponent)) :
    (positionalNumeral negative decimal).value = .ofModel (.pack
      (.finite (signOf negative) significand exponent canonical.positive)) := by
  have sign : (positionalNumeral negative decimal).negative = negative := by
    unfold positionalNumeral
    simp only
    split
    · rfl
    · split <;> rfl
  have value : (decimal.digits : ℚ) * 10 ^ decimal.exponent =
      (decimal.digits * 10 ^ decimal.exponent.toNat : Nat) / 10 ^ (-decimal.exponent).toNat := by
    have powers : (10 : ℚ) ^ decimal.exponent * 10 ^ (-decimal.exponent).toNat =
        10 ^ decimal.exponent.toNat := by
      rw [← zpow_natCast, ← zpow_natCast, ← zpow_add₀ (by norm_num)]
      congr 1
      omega
    rw [eq_div_iff (by positivity), mul_assoc, powers]
    push_cast
    rfl
  rw [value] at stands
  have magnitude := ofScientific_eq canonical stands
  unfold Numeral.value
  rw [natOfDigits_positionalNumeral, length_fraction_positionalNumeral, sign, magnitude]
  cases negative with
  | false => rfl
  | true => exact neg_pack_finite canonical

/-!
### Display
-/

/-- The ways in which numbers are shown. -/
inductive Shown (number : Float) : String → Prop where
  /-- A value beyond all numerals has a name. -/
  | special {text : String} (named : text ∈ ["inf", "-inf", "NaN"])
      (infinite : ∀ negative significand exponent,
        Binary64.ofFloat number ≠ .finite negative significand exponent) : Shown number text
  /-- The two zeros are shown alike. -/
  | zero {negative : Bool} {exponent : Int} (taken : Binary64.ofFloat number = .finite negative 0 exponent) :
      Shown number "0"
  /-- Any other number is shown by a numeral that is read as it. -/
  | numeral {numeral : Numeral} (wellFormed : numeral.WellFormed) (value : numeral.value = number) :
      Shown number (String.ofList numeral.characters)

/-- A signed decimal is written as its numeral. -/
theorem toList_signed (negative : Bool) (decimal : Decimal) :
    (if negative then "-" ++ displayStyle.positionalText decimal
      else displayStyle.positionalText decimal).toList = (positionalNumeral negative decimal).characters := by
  have sign : (positionalNumeral negative decimal).characters =
      (if negative then ['-'] else []) ++ (positionalNumeral false decimal).characters := by
    unfold positionalNumeral Numeral.characters
    simp only
    split
    · simp
    · split <;> simp
  have magnitude := toList_positionalText decimal displayStyle rfl
  rw [sign]
  cases negative with
  | false => exact magnitude
  | true =>
      rw [if_pos rfl, if_pos rfl, String.toList_append, magnitude]
      rfl

/-- How a finite number is displayed. -/
theorem displayNumber_finite {number : Float} {negative : Bool} {significand : Nat} {exponent : Int}
    (taken : Binary64.ofFloat number = .finite negative significand exponent) :
    displayNumber number =
      let magnitude := displayStyle.positionalText (Decimal.shortest .up significand exponent)
      if negative ∧ significand ≠ 0 then "-" ++ magnitude else magnitude := by
  unfold displayNumber NumberStyle.write
  rw [taken]
  simp [NumberStyle.magnitudeText, displayStyle]

/-- Both zeros are displayed without a sign. -/
theorem displayNumber_zero {number : Float} {negative : Bool} {exponent : Int}
    (taken : Binary64.ofFloat number = .finite negative 0 exponent) : displayNumber number = "0" := by
  rw [displayNumber_finite taken, Decimal.shortest, if_pos rfl]
  simp only [ne_eq, not_true_eq_false, and_false, if_false]
  rfl

/-- Every number is shown in one of the three ways. -/
theorem shown_displayNumber (number : Float) : Shown number (displayNumber number) := by
  cases taken : Binary64.ofFloat number with
  | nan =>
      have named : displayNumber number = "NaN" := by rw [displayNumber, NumberStyle.write, taken]; rfl
      rw [named]
      exact .special (by decide) (by simp [taken])
  | infinite negative =>
      have named : displayNumber number = if negative then "-inf" else "inf" := by
        rw [displayNumber, NumberStyle.write, taken]
        rfl
      rw [named]
      exact .special (by cases negative <;> decide) (by simp [taken])
  | finite negative significand exponent =>
      rcases (eq_finiteBits_of_ofBits (UInt64.toNat_lt _) taken).2 with none | canonical
      · rw [none] at taken
        rw [displayNumber_zero taken]
        exact .zero taken
      · have stands := Decimal.stands_shortest .up canonical.positive exponent
        have value := value_positionalNumeral negative canonical stands
        rw [← eq_pack_of_ofFloat taken canonical] at value
        have written : displayNumber number =
            String.ofList (positionalNumeral negative (.shortest .up significand exponent)).characters := by
          have nonzero : significand ≠ 0 := canonical.positive.ne'
          rw [← toList_signed, String.ofList_toList, displayNumber_finite taken]
          simp only [ne_eq, nonzero, not_false_eq_true, and_true]
        rw [written]
        exact .numeral (wellFormed_positionalNumeral _ _) value

/-!
### Reading what was displayed
-/

theorem ofAtom_characters {numeral : Numeral} (wellFormed : numeral.WellFormed) :
    Expr.ofAtom (String.ofList numeral.characters) = .number numeral.value := by
  rw [Expr.ofAtom, String.toList_ofList, Numeral.parse?_characters wellFormed]

theorem ofAtom_zero : Expr.ofAtom "0" = .number (Numeral.value ⟨false, ['0'], []⟩) := rfl

theorem ofFloat_zero : Binary64.ofFloat (Numeral.value ⟨false, ['0'], []⟩) = .finite false 0 (-1074) := by
  decide

theorem ofAtom_special {text : String} (named : text ∈ ["inf", "-inf", "NaN"]) :
    Expr.ofAtom text = .symbol text := by
  simp only [List.mem_cons, List.not_mem_nil, or_false] at named
  rcases named with rfl | rfl | rfl <;> rfl

/-- What a display is read as has the same display, also where it is no number. -/
theorem text_ofAtom_displayNumber (number : Float) :
    (Expr.ofAtom (displayNumber number)).text = displayNumber number := by
  have shown := shown_displayNumber number
  generalize displayed : displayNumber number = text at shown
  cases shown with
  | special named _ => rw [ofAtom_special named, Expr.text]
  | zero _ => rw [ofAtom_zero, Expr.text, displayNumber_zero ofFloat_zero]
  | numeral wellFormed value => rw [ofAtom_characters wellFormed, value, Expr.text, displayed]

/-- A finite number is read as a number that equals it. -/
theorem alike_ofAtom_displayNumber {number : Float} (isNumber : Binary64.ofFloat number ≠ .nan)
    (finite : number.isInf = false) : Expr.alike (.number number) (.ofAtom (displayNumber number)) = true := by
  have shown := shown_displayNumber number
  generalize displayNumber number = text at shown
  cases shown with
  | special _ infinite =>
      cases taken : Binary64.ofFloat number with
      | nan => exact absurd taken isNumber
      | infinite negative =>
          have unpacked := unpack_toModel number
          rw [taken] at unpacked
          rw [Float.isInf, Float.Model.isInf, unpacked] at finite
          cases finite
      | finite negative significand exponent => exact absurd taken (infinite _ _ _)
  | zero taken =>
      rw [ofAtom_zero, Expr.alike]
      exact beq_zeros taken ofFloat_zero
  | numeral wellFormed value =>
      rw [ofAtom_characters wellFormed, value, Expr.alike]
      exact beq_self isNumber

/-- A numeral stands for a number, if only for an infinite one. -/
theorem Numeral.ofFloat_value_ne_nan (numeral : Numeral) : Binary64.ofFloat numeral.value ≠ .nan := by
  unfold Numeral.value
  simp only
  split
  · exact ofFloat_neg_ne_nan (ofScientific_ne_nan _ _)
  · exact ofScientific_ne_nan _ _

end LexLisp
