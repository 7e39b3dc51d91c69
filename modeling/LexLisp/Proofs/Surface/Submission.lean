/-
Module: LexLisp.Proofs.Surface.Submission
Purpose: When an input is held back. The loop counts parentheses and does not look at their order, the reader
  keeps a stack of the open ones. Where the reader finds no stray parenthesis, the count is the height of that
  stack, and the two agree. Where it finds one, the count says nothing about the order: an input with a stray
  parenthesis is held back as well if it opens more than it closes.
Main exports: surplus, openParentheses_eq, surplus_eq_of_nesting, isComplete_eq_false_iff
-/
import LexLisp.Proofs.Surface.Verdict
import LexLisp.Repl

namespace LexLisp

/-- How many more parentheses some characters open than close. -/
def surplus (marks : List Placed) : Int :=
  marks.countP (·.character = '(') - marks.countP (·.character = ')')

@[simp] theorem surplus_nil : surplus [] = 0 := rfl

@[simp] theorem surplus_opening (offset : Nat) (marks : List Placed) :
    surplus (⟨'(', offset⟩ :: marks) = surplus marks + 1 := by
  simp [surplus]
  omega

@[simp] theorem surplus_closing (offset : Nat) (marks : List Placed) :
    surplus (⟨')', offset⟩ :: marks) = surplus marks - 1 := by
  simp [surplus]
  omega

theorem surplus_other {placed : Placed} (notOpening : placed.character ≠ '(')
    (notClosing : placed.character ≠ ')') (marks : List Placed) :
    surplus (placed :: marks) = surplus marks := by
  simp [surplus, notOpening, notClosing]

/-- The count of a text is the surplus of its visible characters, from whatever count it starts. -/
theorem fst_foldl_countParenthesis (text : List Char) (opened : Int) (inComment : Bool) (offset : Nat) :
    (text.foldl countParenthesis (opened, inComment)).1 =
      opened + surplus (visibleFrom inComment offset text) := by
  induction text generalizing opened inComment offset with
  | nil => simp [visibleFrom]
  | cons c text inductionHypothesis =>
      rw [List.foldl_cons]
      by_cases newline : c = '\n'
      · subst newline
        rw [visibleFrom, if_pos rfl, surplus_other (by simp) (by simp)]
        exact inductionHypothesis opened false _
      · by_cases hidden : inComment = true ∨ c = ';'
        · have counted : countParenthesis (opened, inComment) c = (opened, true) := by
            rcases hidden with rfl | rfl <;> simp [countParenthesis, newline]
          rw [counted, visibleFrom, if_neg newline, if_pos (by simpa using hidden)]
          exact inductionHypothesis opened true _
        · obtain ⟨outside, code⟩ := not_or.mp hidden
          rw [visibleFrom, if_neg newline, if_neg (by simpa using hidden)]
          rcases Placed.cases ⟨c, offset⟩ with ⟨place, same⟩ | ⟨place, same⟩ | ⟨notOpening, notClosing⟩
          · obtain ⟨rfl, _⟩ := Placed.mk.inj same
            have counted : countParenthesis (opened, inComment) '(' = (opened + 1, false) := by
              simp [countParenthesis, outside]
            rw [counted, inductionHypothesis _ _ (offset + Char.utf8Size '('), surplus_opening]
            omega
          · obtain ⟨rfl, _⟩ := Placed.mk.inj same
            have counted : countParenthesis (opened, inComment) ')' = (opened - 1, false) := by
              simp [countParenthesis, outside]
            rw [counted, inductionHypothesis _ _ (offset + Char.utf8Size ')'), surplus_closing]
            omega
          · have counted : countParenthesis (opened, inComment) c = (opened, false) := by
              simp only at notOpening notClosing
              simp [countParenthesis, newline, outside, code, notOpening, notClosing]
            rw [counted, surplus_other notOpening notClosing]
            exact inductionHypothesis opened false _

theorem openParentheses_eq (text : String) : openParentheses text = surplus (visible text) := by
  rw [openParentheses, fst_foldl_countParenthesis text.toList 0 false 0, Int.zero_add]
  rfl

/-- Where a pass with a stack gets through, the surplus is how much the stack has grown. -/
theorem surplus_eq_of_nesting {marks : List Placed} {opened later : List Nat}
    (passed : nesting opened marks = .ok later) :
    surplus marks = (later.length : Int) - opened.length := by
  induction marks generalizing opened with
  | nil =>
      cases passed
      simp
  | cons placed marks inductionHypothesis =>
      rcases placed.cases with ⟨offset, rfl⟩ | ⟨offset, rfl⟩ | ⟨notOpening, notClosing⟩
      · rw [nesting_opening] at passed
        rw [surplus_opening, inductionHypothesis passed, List.length_cons]
        omega
      · cases opened with
        | nil =>
            rw [nesting_stray] at passed
            cases passed
        | cons start outer =>
            rw [nesting_closing] at passed
            rw [surplus_closing, inductionHypothesis passed, List.length_cons]
            omega
      · rw [nesting_other notOpening notClosing] at passed
        rw [surplus_other notOpening notClosing]
        exact inductionHypothesis passed

/-- An input that is not blank is held back if and only if it opens more parentheses than it closes. -/
theorem isComplete_eq_false_iff_surplus {text : String} (some : isBlankText text = false) :
    isComplete text = false ↔ 0 < surplus (visible text) := by
  simp [isComplete, some, openParentheses_eq]

/-- A rejected text is rejected with the words of its fault and no others. -/
theorem Rejects.message_eq {source text message : String} {offset length : Nat} {error : ReadError}
    (failed : read source text = .error error) (rejects : Rejects source text message offset length) :
    error.fault.message = message := by
  obtain ⟨other, same, _, words, _⟩ := rejects
  cases failed.symm.trans same
  exact words

/-- An input that is not blank is held back in two cases: the reader would call it unclosed, or the reader would
    report a stray parenthesis and the input opens more parentheses than it closes. So where the reader would
    report no stray parenthesis, it is held back if and only if the reader would call it unclosed. -/
theorem isComplete_eq_false_iff (source : String) {text : String} (some : isBlankText text = false) :
    isComplete text = false ↔
      (∃ offset, Rejects source text "unclosed list" offset 1) ∨
        (∃ offset, Rejects source text "unexpected ')'" offset 1) ∧ 0 < surplus (visible text) := by
  rw [isComplete_eq_false_iff_surplus some]
  constructor
  · intro held
    rcases read_cases source text with
      ⟨offset, _, rejected⟩ | ⟨offset, _, _, rejected⟩ | ⟨_, _, passed, _⟩ | ⟨_, passed, _⟩
    · exact Or.inr ⟨⟨offset, _, rejected, rfl, rfl, rfl⟩, held⟩
    · exact Or.inl ⟨offset, _, rejected, rfl, rfl, rfl⟩
    · rw [surplus_eq_of_nesting passed] at held
      exact absurd held (Int.lt_irrefl 0)
    · rw [surplus_eq_of_nesting passed] at held
      exact absurd held (Int.lt_irrefl 0)
  · rintro (⟨offset, unclosed⟩ | ⟨_, held⟩)
    · rcases read_cases source text with
        ⟨_, _, rejected⟩ | ⟨_, outer, passed, _⟩ | ⟨_, _, _, _, _, rejected⟩ | ⟨_, _, _, accepted⟩
      · have words : "unexpected ')'" = "unclosed list" := unclosed.message_eq rejected
        exact absurd words (by decide)
      · rw [surplus_eq_of_nesting passed]
        simp
      · have words : "expected quoted, list, number, or symbol" = "unclosed list" :=
          unclosed.message_eq rejected
        exact absurd words (by decide)
      · obtain ⟨_, rejected, _⟩ := unclosed
        cases accepted.symm.trans rejected
    · exact held

/-- A closing parenthesis in a comment closes nothing, so the input is held back, and the reader would say where
    the list was opened. -/
theorem isComplete_eq_false_iff_comment :
    isComplete "(a ;)" = false ∧ (∃ offset, Rejects "<repl:1>" "(a ;)" "unclosed list" offset 1) := by
  have rejected : read "<repl:1>" "(a ;)" = .error ⟨"<repl:1>", .unclosedList 0⟩ := by rfl
  have unclosed : ∃ offset, Rejects "<repl:1>" "(a ;)" "unclosed list" offset 1 :=
    ⟨0, _, rejected, rfl, rfl, rfl⟩
  exact ⟨(isComplete_eq_false_iff "<repl:1>" (by decide)).mpr (Or.inl unclosed), unclosed⟩

/-- A stray parenthesis before two unclosed ones: the reader would report the stray one, and still the loop
    holds the input back. -/
theorem classify_stray_unclosed :
    isBlankText ")((" = false ∧ Rejects "<repl:1>" ")((" "unexpected ')'" 0 1 ∧
      (¬ ∃ offset length, Rejects "<repl:1>" ")((" "unclosed list" offset length) ∧
        isComplete ")((" = false ∧ classify "" ")((" = .hold ")((" := by
  have some : isBlankText ")((" = false := by decide
  have rejected : read "<repl:1>" ")((" = .error ⟨"<repl:1>", .strayClosing 0⟩ := by rfl
  have held : isComplete ")((" = false := by decide
  have noCommand : (trimmed ")((").startsWith ":" = false := by
    rw [String.startsWith_string_eq_false_iff]
    decide
  refine ⟨some, ⟨_, rejected, rfl, rfl, rfl⟩, ?_, held, by simp [classify, noCommand, some, held]⟩
  rintro ⟨offset, length, unclosed⟩
  exact absurd (unclosed.message_eq rejected) (by decide)

end LexLisp
