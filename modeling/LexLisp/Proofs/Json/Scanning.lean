/-
Module: LexLisp.Proofs.Json.Scanning
Purpose: Reading a number or a string from the front of a longer text. A number goes on as long as it can, so
  it is read alike before any text that cannot continue it; a string ends at its quote, and reading undoes the
  escape of every character.
Main exports: Json.Ends, Json.readNumber_append, Json.exists_cons_of_readNumber, Json.readString_flatMap_escape
-/
import LexLisp.Json.Tree

namespace LexLisp.Json

/-!
### Numbers
-/

/-- A text that no number goes on with. -/
def Ends (rest : List Char) : Prop :=
  ∀ c ∈ rest.head?, c.isDigit = false ∧ c ≠ '.' ∧ c ≠ 'e' ∧ c ≠ 'E'

theorem ends_nil : Ends [] := by
  simp [Ends]

theorem ends_cons {c : Char} (mark : c = ',' ∨ c = ']') (rest : List Char) : Ends (c :: rest) := by
  rcases mark with rfl | rfl <;> simp [Ends]

section Append

variable {rest : List Char} (ends : Ends rest)

include ends

/-- The digits at the front of a text are the same with such a text behind it. -/
theorem takeWhile_append (characters : List Char) :
    (characters ++ rest).takeWhile Char.isDigit = characters.takeWhile Char.isDigit := by
  induction characters with
  | nil =>
      cases rest with
      | nil => rfl
      | cons c rest => simp [(ends c rfl).1]
  | cons c characters inductionHypothesis =>
      by_cases digit : c.isDigit = true
      · simp [digit, inductionHypothesis]
      · simp [digit]

theorem dropWhile_append (characters : List Char) :
    (characters ++ rest).dropWhile Char.isDigit = characters.dropWhile Char.isDigit ++ rest := by
  induction characters with
  | nil =>
      cases rest with
      | nil => rfl
      | cons c rest => simp [(ends c rfl).1]
  | cons c characters inductionHypothesis =>
      by_cases digit : c.isDigit = true
      · simp [digit, inductionHypothesis]
      · simp [digit]

theorem readWhole_append {characters whole behind : List Char}
    (known : readWhole characters = some (whole, behind)) :
    readWhole (characters ++ rest) = some (whole, behind ++ rest) := by
  unfold readWhole at known
  split at known
  · next after =>
      split at known
      · next alone =>
          cases known
          simp [readWhole, takeWhile_append ends, alone]
      · cases known
  · next notZero =>
      dsimp only at known
      split at known
      · cases known
      · next some =>
          cases known
          cases characters with
          | nil => exact absurd rfl some
          | cons c characters =>
              have other : c ≠ '0' := by
                rintro rfl
                exact notZero characters rfl
              rw [← takeWhile_append ends, ← dropWhile_append ends]
              rw [← takeWhile_append ends] at some
              unfold readWhole
              split
              · next same => exact absurd (List.cons.inj same).1 other
              · exact if_neg some

theorem readFraction_append {characters fraction behind : List Char}
    (known : readFraction characters = some (fraction, behind)) :
    readFraction (characters ++ rest) = some (fraction, behind ++ rest) := by
  unfold readFraction at known
  split at known
  · next after =>
      dsimp only at known
      split at known
      · cases known
      · next some =>
          cases known
          simp [readFraction, takeWhile_append ends, dropWhile_append ends, some]
  · next noPoint =>
      cases known
      unfold readFraction
      split
      · next after same =>
          -- The point would be the first character of the number or of what stands behind it.
          cases characters with
          | nil =>
              rw [List.nil_append] at same
              exact absurd rfl (ends '.' (by rw [same]; rfl)).2.1
          | cons c characters => exact absurd (by rw [(List.cons.inj same).1]) (noPoint characters)
      · rfl

theorem readExponentDigits_append {negative : Bool} {characters behind : List Char}
    {exponent : Bool × List Char}
    (known : readExponentDigits negative characters = some (exponent, behind)) :
    readExponentDigits negative (characters ++ rest) = some (exponent, behind ++ rest) := by
  unfold readExponentDigits at known
  dsimp only at known
  split at known
  · cases known
  · next some =>
      cases known
      simp [readExponentDigits, takeWhile_append ends, dropWhile_append ends, some]

theorem readExponent_append {characters behind : List Char} {exponent : Bool × List Char}
    (known : readExponent characters = some (exponent, behind)) :
    readExponent (characters ++ rest) = some (exponent, behind ++ rest) := by
  cases characters with
  | nil =>
      cases known
      cases rest with
      | nil => rfl
      | cons c rest =>
          obtain ⟨_, _, lower, upper⟩ := ends c rfl
          simp [readExponent, lower, upper]
  | cons mark characters =>
      by_cases marked : mark = 'e' ∨ mark = 'E'
      · simp only [List.cons_append, readExponent, if_pos marked] at known ⊢
        split at known
        · exact readExponentDigits_append ends known
        · exact readExponentDigits_append ends known
        · next noMinus noPlus =>
            cases characters with
            | nil => simp [readExponentDigits] at known
            | cons c characters =>
                split
                · next same => exact absurd (by rw [(List.cons.inj same).1]) (noMinus characters)
                · next same => exact absurd (by rw [(List.cons.inj same).1]) (noPlus characters)
                · exact readExponentDigits_append ends known
      · simp only [List.cons_append, readExponent, if_neg marked] at known ⊢
        cases known
        rfl

theorem readMagnitude_append {negative : Bool} {characters behind : List Char} {number : NumberText}
    (known : readMagnitude negative characters = some (number, behind)) :
    readMagnitude negative (characters ++ rest) = some (number, behind ++ rest) := by
  unfold readMagnitude at known ⊢
  obtain ⟨⟨whole, afterWhole⟩, atWhole, known⟩ := Option.bind_eq_some_iff.mp known
  obtain ⟨⟨fraction, afterFraction⟩, atFraction, known⟩ := Option.bind_eq_some_iff.mp known
  obtain ⟨⟨⟨exponentNegative, exponent⟩, afterExponent⟩, atExponent, known⟩ :=
    Option.bind_eq_some_iff.mp known
  cases known
  simp only [readWhole_append ends atWhole, readFraction_append ends atFraction,
    readExponent_append ends atExponent, Option.bind_eq_bind, Option.bind_some]

/-- A number is read alike before any text that it does not go on with. -/
theorem readNumber_append {characters behind : List Char} {number : NumberText}
    (known : readNumber characters = some (number, behind)) :
    readNumber (characters ++ rest) = some (number, behind ++ rest) := by
  unfold readNumber at known
  split at known
  · exact readMagnitude_append ends known
  · next noMinus =>
      have longer := readMagnitude_append ends known
      unfold readNumber
      split
      · next same =>
          cases characters with
          | nil => cases known
          | cons c characters => exact absurd (by rw [(List.cons.inj same).1]) (noMinus characters)
      · exact longer

end Append

theorem readWhole_of_not_isDigit {c : Char} (noDigit : c.isDigit = false) (after : List Char) :
    readWhole (c :: after) = none := by
  unfold readWhole
  split
  · next same =>
      rw [(List.cons.inj same).1] at noDigit
      cases noDigit
  · simp [noDigit]

/-- A number starts with its sign or with a digit. -/
theorem exists_cons_of_readNumber {characters behind : List Char} {number : NumberText}
    (known : readNumber characters = some (number, behind)) :
    ∃ c after, characters = c :: after ∧ (c = '-' ∨ c.isDigit = true) := by
  unfold readNumber at known
  split at known
  · next after => exact ⟨'-', after, rfl, Or.inl rfl⟩
  · cases characters with
    | nil => cases known
    | cons c after =>
        cases digit : c.isDigit with
        | true => exact ⟨c, after, rfl, Or.inr digit⟩
        | false => simp [readMagnitude, readWhole_of_not_isDigit digit] at known

/-!
### Strings
-/

theorem readString_step {state next : StringState} {c : Char} {completed : List Char}
    (inside : ¬ (state = .plain ∧ c = '"')) (advanced : state.advance? c = some (next, completed))
    (reversed rest : List Char) :
    readString state reversed (c :: rest) = readString next (completed ++ reversed) rest := by
  simp [readString, inside, advanced]

theorem hexValue?_hexDigit : ∀ {value : Nat}, value < 16 → hexValue? (hexDigit value) = some value := by
  decide

/-- The code of a control character in four digits is read as that character. -/
theorem readString_unit {c : Char} (control : c.toNat < 32) (reversed rest : List Char) :
    readString .plain reversed
      ('\\' :: 'u' :: '0' :: '0' :: hexDigit (c.toNat / 16) :: hexDigit (c.toNat % 16) :: rest) =
        readString .plain (c :: reversed) rest := by
  have high : StringState.advance? (.unit 2 0 none) (hexDigit (c.toNat / 16)) =
      some (.unit 1 (c.toNat / 16) none, []) := by
    simp [StringState.advance?, hexValue?_hexDigit (show c.toNat / 16 < 16 by omega)]
  have whole : 16 * (c.toNat / 16) + c.toNat % 16 = c.toNat := Nat.div_add_mod _ 16
  have low : StringState.advance? (.unit 1 (c.toNat / 16) none) (hexDigit (c.toNat % 16)) =
      some (.plain, [c]) := by
    have noHigh : isHighSurrogate c.toNat = false := by simp [isHighSurrogate]; omega
    have noLow : isLowSurrogate c.toNat = false := by simp [isLowSurrogate]; omega
    simp [StringState.advance?, hexValue?_hexDigit (show c.toNat % 16 < 16 by omega), whole, afterUnit?,
      noHigh, noLow]
  have opened : ∀ more, readString .plain reversed ('\\' :: 'u' :: '0' :: '0' :: more) =
      readString (.unit 2 0 none) reversed more := fun _ => rfl
  rw [opened, readString_step (by simp) high, readString_step (by simp) low]
  rfl

/-- Reading undoes the escape of a character. -/
theorem readString_escape (c : Char) (reversed rest : List Char) :
    readString .plain reversed (escape c ++ rest) = readString .plain (c :: reversed) rest := by
  by_cases short : c ∈ ['"', '\\', '\x08', '\t', '\n', '\x0c', '\r']
  · simp only [List.mem_cons, List.not_mem_nil, or_false] at short
    rcases short with rfl | rfl | rfl | rfl | rfl | rfl | rfl <;> rfl
  · simp only [List.mem_cons, List.not_mem_nil, or_false, not_or] at short
    obtain ⟨quote, backslash, backspace, tab, newline, formFeed, carriage⟩ := short
    simp only [escape, quote, backslash, backspace, tab, newline, formFeed, carriage, if_false]
    split
    · next control => exact readString_unit control reversed rest
    · next shown =>
        have plain : StringState.plain.advance? c = some (.plain, [c]) := by
          simp [StringState.advance?, backslash, shown]
        exact readString_step (by simp [quote]) plain reversed rest

/-- A string is read up to its closing quote. -/
theorem readString_flatMap_escape (characters reversed rest : List Char) :
    readString .plain reversed (characters.flatMap escape ++ '"' :: rest) =
      some (String.ofList (reversed.reverse ++ characters), rest) := by
  induction characters generalizing reversed with
  | nil => simp [readString]
  | cons c characters inductionHypothesis =>
      rw [List.flatMap_cons, List.append_assoc, readString_escape, inductionHypothesis]
      simp

end LexLisp.Json
