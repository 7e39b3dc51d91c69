/-
Module: LexLisp.Proofs.Decimal.Standing
Purpose: The decimal that is printed for a double stands for it. The tests that choose it compare natural numbers,
  which are the value and the halfway points with denominators cleared; so every decimal that passes lies between
  the halfway points, whichever grid it is on. Nothing about the search is needed beyond that.
Main exports: standsOnGrid, stands_shortest
-/
import LexLisp.Proofs.Decimal.Rounding

namespace LexLisp

namespace Decimal

/-- Whether a multiple of `10 ^ grid` lies between the halfway points, all in units of one denominator. -/
def standsOnGrid (significand : Nat) (exponent grid : Int) (multiple : Nat) : Bool :=
  let scale := twoTo (exponent - 2).toNat * tenTo (-grid).toNat
  let step := tenTo grid.toNat * twoTo (2 - exponent).toNat
  let gap := if significand = twoTo 52 ∧ -1074 < exponent then 1 else 2
  let lower := (4 * significand - gap) * scale
  let upper := (4 * significand + 2) * scale
  if significand % 2 = 0 then decide (lower ≤ multiple * step ∧ multiple * step ≤ upper)
  else decide (lower < multiple * step ∧ multiple * step < upper)

/-- What is found on a grid has passed the test. -/
theorem standsOnGrid_of_found {tie : TieRule} {significand : Nat} {exponent grid : Int} {multiple : Nat}
    (found : nearestOnGrid? tie significand exponent grid = some multiple) :
    standsOnGrid significand exponent grid multiple = true := by
  unfold nearestOnGrid? at found
  simp only at found
  split at found
  · cases found
  · next below _ =>
      cases found
      exact below
  · next _ above =>
      cases found
      exact above
  · next below above =>
      split at found
      · cases found
        exact below
      · cases found
        exact above
      · cases tie with
        | up =>
            cases found
            exact above
        | even =>
            simp only at found
            split at found
            · cases found
              exact below
            · cases found
              exact above

/-- Clearing denominators: the decimal, counted in the last place of the double, is the ratio of the two natural
    numbers that the test compares. -/
theorem scaled_eq (exponent grid : Int) (multiple : Nat) :
    ((multiple * (tenTo grid.toNat * twoTo (2 - exponent).toNat) : Nat) : ℚ) =
      4 * (multiple * 10 ^ grid / 2 ^ exponent) *
        (twoTo (exponent - 2).toNat * tenTo (-grid).toNat : Nat) := by
  have tens : (10 : ℚ) ^ grid * 10 ^ (-grid).toNat = 10 ^ grid.toNat := by
    rw [← zpow_natCast, ← zpow_natCast, ← zpow_add₀ (by norm_num)]
    congr 1
    omega
  have twos : (2 : ℚ) ^ (exponent - 2).toNat * 4 = 2 ^ exponent * 2 ^ (2 - exponent).toNat := by
    rw [(by norm_num : (4 : ℚ) = 2 ^ (2 : Int)), ← zpow_natCast, ← zpow_natCast,
      ← zpow_add₀ two_ne_zero, ← zpow_add₀ two_ne_zero]
    congr 1
    omega
  have scale : (2 : ℚ) ^ exponent ≠ 0 := by positivity
  simp only [twoTo, tenTo, Nat.pow_eq]
  push_cast
  calc (multiple : ℚ) * (10 ^ grid.toNat * 2 ^ (2 - exponent).toNat)
      = multiple * (10 ^ grid * 10 ^ (-grid).toNat) / 2 ^ exponent *
          (2 ^ exponent * 2 ^ (2 - exponent).toNat) := by
        rw [tens]
        field_simp
    _ = 4 * (multiple * 10 ^ grid / 2 ^ exponent) * (2 ^ (exponent - 2).toNat * 10 ^ (-grid).toNat) := by
        rw [← twos]
        ring

/-- The lower halfway point in quarters of the last place. -/
theorem quarters_below {significand : Nat} (exponent : Int) (positive : 0 < significand) :
    ((4 * significand - (if significand = twoTo 52 ∧ -1074 < exponent then 1 else 2) : Nat) : ℚ) =
      4 * (significand - gapBelow significand exponent) := by
  have least : twoTo 52 = 2 ^ 52 := rfl
  rw [gapBelow, least]
  by_cases narrow : significand = 2 ^ 52 ∧ -1074 < exponent
  · rw [if_pos narrow, if_pos narrow, Nat.cast_sub (by omega)]
    push_cast
    ring
  · rw [if_neg narrow, if_neg narrow, Nat.cast_sub (by omega)]
    push_cast
    ring

/-- What passes the test stands for the double. -/
theorem stands_of_standsOnGrid {significand : Nat} {exponent grid : Int} {multiple : Nat}
    (positive : 0 < significand) (passed : standsOnGrid significand exponent grid multiple = true) :
    Stands significand exponent (multiple * 10 ^ grid) := by
  have scaled := scaled_eq exponent grid multiple
  have scalePositive : 0 < ((twoTo (exponent - 2).toNat * tenTo (-grid).toNat : Nat) : ℚ) := by
    simp only [twoTo, tenTo, Nat.pow_eq]
    positivity
  have gap := quarters_below exponent positive
  simp only [standsOnGrid] at passed
  generalize multiple * (tenTo grid.toNat * twoTo (2 - exponent).toNat) = counted at scaled passed
  generalize twoTo (exponent - 2).toNat * tenTo (-grid).toNat = scale at scaled scalePositive passed
  generalize 4 * significand - (if significand = twoTo 52 ∧ -1074 < exponent then 1 else 2) = lower
    at gap passed
  have least : lower * scale ≤ counted ↔
      significand - gapBelow significand exponent ≤ multiple * 10 ^ grid / 2 ^ exponent := by
    rw [← Nat.cast_le (α := ℚ), Nat.cast_mul, scaled, gap, mul_le_mul_iff_left₀ scalePositive,
      mul_le_mul_iff_right₀ four_pos]
  have greatest : counted ≤ (4 * significand + 2) * scale ↔
      (multiple * 10 ^ grid / 2 ^ exponent : ℚ) ≤ significand + 1 / 2 := by
    rw [← Nat.cast_le (α := ℚ), Nat.cast_mul, scaled, mul_le_mul_iff_left₀ scalePositive]
    push_cast
    constructor <;> intro bounded <;> linarith
  split at passed
  · next even =>
      obtain ⟨low, high⟩ := of_decide_eq_true passed
      exact ⟨least.mp low, greatest.mp high, fun _ => even⟩
  · next odd =>
      obtain ⟨low, high⟩ := of_decide_eq_true passed
      refine ⟨least.mp low.le, greatest.mp high.le, ?_⟩
      intro boundary
      rcases boundary with atLower | atUpper
      · have same : (counted : ℚ) = (lower * scale : Nat) := by rw [scaled, atLower, Nat.cast_mul, gap]
        exact absurd (Nat.cast_injective same) low.ne'
      · have same : (counted : ℚ) = ((4 * significand + 2) * scale : Nat) := by
          rw [scaled, atUpper]
          push_cast
          ring
        exact absurd (Nat.cast_injective same) high.ne

/-- The exact expansion is the double itself. -/
theorem stands_exact (significand : Nat) (exponent : Int) :
    Stands significand exponent ((exact significand exponent).digits *
      10 ^ (exact significand exponent).exponent) := by
  have value : ((exact significand exponent).digits * 10 ^ (exact significand exponent).exponent : ℚ) =
      significand * 2 ^ exponent := by
    unfold exact
    split
    · next whole =>
        have power : (2 : ℚ) ^ exponent = 2 ^ exponent.toNat := by
          rw [← zpow_natCast, Int.toNat_of_nonneg whole]
        simp only [twoTo, Nat.pow_eq, power]
        push_cast
        ring
    · next fraction =>
        have power : (5 : ℚ) ^ (-exponent).toNat * 5 ^ exponent = 1 := by
          rw [← zpow_natCast, ← zpow_add₀ (by norm_num), Int.toNat_of_nonneg (by omega), neg_add_cancel,
            zpow_zero]
        simp only [Nat.pow_eq]
        push_cast
        rw [(by norm_num : (10 : ℚ) = 5 * 2), mul_zpow, mul_assoc, ← mul_assoc (5 ^ _ : ℚ), power, one_mul]
  rw [value]
  exact stands_self significand exponent

/-- The decimal that is printed for a double was found on a grid, if it is not the exact expansion. -/
theorem shortest_cases (tie : TieRule) {significand : Nat} (positive : 0 < significand) (exponent : Int) :
    shortest tie significand exponent = exact significand exponent ∨
      ∃ multiple grid, nearestOnGrid? tie significand exponent grid = some multiple ∧
        shortest tie significand exponent =
          if multiple = 10 then Decimal.mk 1 (grid + 1) else Decimal.mk multiple grid := by
  unfold shortest
  rw [if_neg positive.ne']
  simp only
  generalize found : (List.range 17).findSome? _ = choice
  cases choice with
  | none => exact Or.inl rfl
  | some decimal =>
      obtain ⟨extraDigits, _, onGrid⟩ := List.exists_of_findSome?_eq_some found
      obtain ⟨multiple, nearest, chosen⟩ := Option.map_eq_some_iff.mp onGrid
      exact Or.inr ⟨multiple, _, nearest, chosen.symm⟩

/-- The decimal that is printed for a double stands for it. -/
theorem stands_shortest (tie : TieRule) {significand : Nat} (positive : 0 < significand) (exponent : Int) :
    Stands significand exponent ((shortest tie significand exponent).digits *
      10 ^ (shortest tie significand exponent).exponent) := by
  rcases shortest_cases tie positive exponent with exactly | ⟨multiple, grid, nearest, chosen⟩
  · rw [exactly]
    exact stands_exact significand exponent
  · have stands := stands_of_standsOnGrid positive (standsOnGrid_of_found nearest)
    rw [chosen]
    split
    · next ten =>
        have carried : ((1 : Nat) : ℚ) * 10 ^ (grid + 1) = (multiple : Nat) * 10 ^ grid := by
          rw [ten, zpow_add_one₀ (by norm_num)]
          push_cast
          ring
        rw [carried]
        exact stands
    · exact stands

end Decimal

end LexLisp
