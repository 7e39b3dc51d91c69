/-
Module: LexLisp.Proofs.Surface.Nesting
Purpose: Which parentheses belong together. Two of them match if what stands between is balanced; one that
  matches none is stray or unclosed. A pass with a stack of the open ones finds the first stray one, and else
  leaves on its stack exactly the unclosed ones, the last on top.
Main exports: Balanced, Stray, Unclosed, nesting, stray_of_nesting, unclosed_of_nesting, Marked.nesting_eq
-/
import LexLisp.Proofs.Surface.Lexing
import LexLisp.Surface.Reader
import Mathlib.Data.List.Induction

namespace LexLisp

/-- Every parenthesis has its match. -/
inductive Balanced : List Placed → Prop where
  | nil : Balanced []
  | other {placed : Placed} {rest : List Placed} (notOpening : placed.character ≠ '(')
      (notClosing : placed.character ≠ ')') (balanced : Balanced rest) : Balanced (placed :: rest)
  | nested {start stop : Nat} {inner rest : List Placed} (inside : Balanced inner)
      (behind : Balanced rest) : Balanced (⟨'(', start⟩ :: (inner ++ ⟨')', stop⟩ :: rest))

/-- At this offset stands a closing parenthesis that matches no opening one before it. -/
def Stray (marks : List Placed) (offset : Nat) : Prop :=
  ∃ before after, marks = before ++ ⟨')', offset⟩ :: after ∧
    ∀ outer start inner, before = outer ++ ⟨'(', start⟩ :: inner → ¬ Balanced inner

/-- At this offset stands an opening parenthesis that matches no closing one behind it. -/
def Unclosed (marks : List Placed) (offset : Nat) : Prop :=
  ∃ before after, marks = before ++ ⟨'(', offset⟩ :: after ∧
    ∀ inner stop outer, after = inner ++ ⟨')', stop⟩ :: outer → ¬ Balanced inner

/-!
### The pass with a stack
-/

/-- The offsets of the open parentheses after one more character, innermost first, or the offset of a closing
    one that closes nothing. -/
def nest (opened : List Nat) (placed : Placed) : Except Nat (List Nat) :=
  if placed.character = '(' then .ok (placed.offset :: opened)
  else if placed.character = ')' then
    match opened with
    | [] => .error placed.offset
    | _ :: outer => .ok outer
  else .ok opened

/-- The same after more characters. -/
def nesting (opened : List Nat) (marks : List Placed) : Except Nat (List Nat) :=
  marks.foldlM nest opened

theorem nesting_cons (opened : List Nat) (placed : Placed) (marks : List Placed) :
    nesting opened (placed :: marks) = nest opened placed >>= fun later => nesting later marks := by
  simp [nesting]

/-- The nesting of two texts is that of the second from where the first has come to. -/
theorem nesting_append (opened : List Nat) (first second : List Placed) :
    nesting opened (first ++ second) = nesting opened first >>= fun later => nesting later second := by
  simp [nesting]

@[simp] theorem nesting_opening (opened : List Nat) (offset : Nat) (marks : List Placed) :
    nesting opened (⟨'(', offset⟩ :: marks) = nesting (offset :: opened) marks := by
  rw [nesting_cons]
  rfl

@[simp] theorem nesting_closing (outer : List Nat) (start offset : Nat) (marks : List Placed) :
    nesting (start :: outer) (⟨')', offset⟩ :: marks) = nesting outer marks := by
  rw [nesting_cons]
  rfl

@[simp] theorem nesting_stray (offset : Nat) (marks : List Placed) :
    nesting [] (⟨')', offset⟩ :: marks) = .error offset := by
  rw [nesting_cons]
  rfl

/-- Only parentheses count. -/
theorem nesting_other {placed : Placed} (notOpening : placed.character ≠ '(')
    (notClosing : placed.character ≠ ')') (opened : List Nat) (marks : List Placed) :
    nesting opened (placed :: marks) = nesting opened marks := by
  simp only [nesting_cons, nest, notOpening, notClosing, if_false]
  rfl

/-- A character is an opening parenthesis, a closing one, or neither. -/
theorem Placed.cases (placed : Placed) :
    (∃ offset, placed = ⟨'(', offset⟩) ∨ (∃ offset, placed = ⟨')', offset⟩) ∨
      (placed.character ≠ '(' ∧ placed.character ≠ ')') := by
  obtain ⟨character, offset⟩ := placed
  by_cases isOpening : character = '('
  · exact Or.inl ⟨offset, by rw [isOpening]⟩
  · by_cases isClosing : character = ')'
    · exact Or.inr (Or.inl ⟨offset, by rw [isClosing]⟩)
    · exact Or.inr (Or.inr ⟨isOpening, isClosing⟩)

theorem nesting_append_ok {opened later : List Nat} {first : List Placed}
    (passed : nesting opened first = .ok later) (second : List Placed) :
    nesting opened (first ++ second) = nesting later second := by
  rw [nesting_append, passed]
  rfl

/-- If a pass gets through, it gets through every beginning. -/
theorem exists_nesting_of_append {opened final : List Nat} {first second : List Placed}
    (passed : nesting opened (first ++ second) = .ok final) :
    ∃ later, nesting opened first = .ok later ∧ nesting later second = .ok final := by
  cases begun : nesting opened first with
  | ok later => exact ⟨later, rfl, by rw [← passed, nesting_append_ok begun]⟩
  | error offset =>
      rw [nesting_append, begun] at passed
      cases passed

/-- What is open around the characters stays open. -/
theorem nesting_frame (outer : List Nat) {opened later : List Nat} {marks : List Placed}
    (passed : nesting opened marks = .ok later) :
    nesting (opened ++ outer) marks = .ok (later ++ outer) := by
  induction marks generalizing opened with
  | nil =>
      cases passed
      rfl
  | cons placed marks inductionHypothesis =>
      rcases placed.cases with ⟨offset, rfl⟩ | ⟨offset, rfl⟩ | ⟨notOpening, notClosing⟩
      · rw [nesting_opening] at passed ⊢
        exact inductionHypothesis passed
      · cases opened with
        | nil =>
            rw [nesting_stray] at passed
            cases passed
        | cons start opened =>
            rw [nesting_closing] at passed
            rw [List.cons_append, nesting_closing]
            exact inductionHypothesis passed
      · rw [nesting_other notOpening notClosing] at passed ⊢
        exact inductionHypothesis passed

/-!
### Balanced stretches
-/

/-- What is balanced leaves the nesting as it finds it. -/
theorem Balanced.nesting_eq {marks : List Placed} (balanced : Balanced marks) (opened : List Nat) :
    nesting opened marks = .ok opened := by
  induction balanced generalizing opened with
  | nil => rfl
  | other notOpening notClosing _ inductionHypothesis =>
      rw [nesting_other notOpening notClosing]
      exact inductionHypothesis opened
  | nested _ _ insideHypothesis behindHypothesis =>
      rw [nesting_opening, nesting_append_ok (insideHypothesis _), nesting_closing]
      exact behindHypothesis opened

/-- Two balanced texts in a row are balanced. -/
theorem Balanced.append {first second : List Placed} (one : Balanced first) (two : Balanced second) :
    Balanced (first ++ second) := by
  induction one with
  | nil => exact two
  | other notOpening notClosing _ inductionHypothesis =>
      exact .other notOpening notClosing inductionHypothesis
  | nested inside _ _ behindHypothesis =>
      rw [List.cons_append, List.append_assoc, List.cons_append]
      exact .nested inside behindHypothesis

/-- The characters fall into balanced stretches, between them the open parentheses. -/
def Opens : List Nat → List Placed → Prop
  | [], marks => Balanced marks
  | offset :: outer, marks =>
    ∃ before inner, marks = before ++ ⟨'(', offset⟩ :: inner ∧ Opens outer before ∧ Balanced inner

/-- What is balanced may follow what opens. -/
theorem Opens.append {opened : List Nat} {first second : List Placed} (one : Opens opened first)
    (two : Balanced second) : Opens opened (first ++ second) := by
  cases opened with
  | nil => exact Balanced.append one two
  | cons offset outer =>
      obtain ⟨before, inner, rfl, around, inside⟩ := one
      exact ⟨before, inner ++ second, by simp, around, inside.append two⟩

/-- What is open was opened by a parenthesis at that offset. -/
theorem Opens.mem {opened : List Nat} {marks : List Placed} (opens : Opens opened marks) {offset : Nat}
    (member : offset ∈ opened) : ⟨'(', offset⟩ ∈ marks := by
  induction opened generalizing marks with
  | nil => cases member
  | cons first outer inductionHypothesis =>
      obtain ⟨before, inner, rfl, around, _⟩ := opens
      rcases List.mem_cons.mp member with rfl | later
      · simp
      · exact List.mem_append_left _ (inductionHypothesis around later)

/-- What a pass leaves on its stack are the open parentheses. -/
theorem opens_of_nesting {marks : List Placed} :
    ∀ {opened : List Nat}, nesting [] marks = .ok opened → Opens opened marks := by
  induction marks using List.reverseRecOn with
  | nil =>
      intro opened passed
      cases passed
      exact Balanced.nil
  | append_singleton marks placed inductionHypothesis =>
      intro opened passed
      obtain ⟨before, begun, last⟩ := exists_nesting_of_append passed
      have opens := inductionHypothesis begun
      rcases placed.cases with ⟨offset, rfl⟩ | ⟨offset, rfl⟩ | ⟨notOpening, notClosing⟩
      · rw [nesting_opening] at last
        cases last
        exact ⟨marks, [], rfl, opens, .nil⟩
      · cases before with
        | nil =>
            rw [nesting_stray] at last
            cases last
        | cons start outer =>
            rw [nesting_closing] at last
            cases last
            obtain ⟨around, inner, rfl, outside, inside⟩ := opens
            rw [List.append_assoc]
            exact outside.append (.nested inside .nil)
      · rw [nesting_other notOpening notClosing] at last
        cases last
        exact opens.append (.other notOpening notClosing .nil)

/-- A pass stops at a closing parenthesis before which all is balanced. -/
theorem balanced_of_nesting {marks : List Placed} {offset : Nat}
    (stopped : nesting [] marks = .error offset) :
    ∃ before after, marks = before ++ ⟨')', offset⟩ :: after ∧ Balanced before := by
  induction marks using List.reverseRecOn with
  | nil => cases stopped
  | append_singleton marks placed inductionHypothesis =>
      cases begun : nesting [] marks with
      | error other =>
          rw [nesting_append, begun] at stopped
          cases stopped
          obtain ⟨before, after, same, balanced⟩ := inductionHypothesis begun
          exact ⟨before, after ++ [placed], by simp [same], balanced⟩
      | ok opened =>
          rw [nesting_append_ok begun] at stopped
          rcases placed.cases with ⟨place, rfl⟩ | ⟨place, rfl⟩ | ⟨notOpening, notClosing⟩
          · rw [nesting_opening] at stopped
            cases stopped
          · cases opened with
            | nil =>
                rw [nesting_stray] at stopped
                cases stopped
                exact ⟨marks, [], rfl, opens_of_nesting begun⟩
            | cons start outer =>
                rw [nesting_closing] at stopped
                cases stopped
          · rw [nesting_other notOpening notClosing] at stopped
            cases stopped

/-!
### Stray and unclosed parentheses
-/

/-- Where a pass gets through, every closing parenthesis has its match. -/
theorem not_stray_of_nesting {marks : List Placed} {opened : List Nat}
    (passed : nesting [] marks = .ok opened) (offset : Nat) : ¬ Stray marks offset := by
  rintro ⟨before, after, rfl, unmatched⟩
  obtain ⟨later, begun, rest⟩ := exists_nesting_of_append passed
  cases later with
  | nil =>
      rw [nesting_stray] at rest
      cases rest
  | cons start outer =>
      obtain ⟨around, inner, same, _, inside⟩ := opens_of_nesting begun
      exact unmatched around start inner same inside

theorem offset_lt_of_sorted {before after : List Placed} {placed later : Placed}
    (sorted : (before ++ placed :: after).Pairwise (·.offset < ·.offset)) (member : later ∈ after) :
    placed.offset < later.offset := by
  have behind := (List.pairwise_append.mp sorted).2.1
  exact (List.pairwise_cons.mp behind).1 later member

/-- Where a pass stops, there is the first stray closing parenthesis. -/
theorem stray_of_nesting {marks : List Placed} {offset : Nat}
    (stopped : nesting [] marks = .error offset)
    (sorted : marks.Pairwise (·.offset < ·.offset)) :
    Stray marks offset ∧ ∀ other, Stray marks other → offset ≤ other := by
  obtain ⟨before, after, rfl, balanced⟩ := balanced_of_nesting stopped
  constructor
  · refine ⟨before, after, rfl, ?_⟩
    rintro outer start inner rfl inside
    obtain ⟨later, begun, rest⟩ := exists_nesting_of_append (balanced.nesting_eq [])
    rw [nesting_opening, inside.nesting_eq] at rest
    cases rest
  · intro other stray
    obtain ⟨around, beyond, same, unmatched⟩ := stray
    rcases List.append_eq_append_iff.mp same with ⟨between, rfl, rest⟩ | ⟨between, rfl, rest⟩
    · -- The other one stands at the same place or behind.
      rcases List.cons_eq_append_iff.mp rest with ⟨rfl, here⟩ | ⟨tail, rfl, rfl⟩
      · cases here
        exact Nat.le_refl _
      · exact Nat.le_of_lt (offset_lt_of_sorted sorted (List.mem_append_right tail List.mem_cons_self))
    · -- It stands before, where all is balanced.
      rcases List.cons_eq_append_iff.mp rest with ⟨rfl, here⟩ | ⟨tail, rfl, _⟩
      · cases here
        exact Nat.le_refl _
      · exact absurd ⟨around, tail, rfl, unmatched⟩ (not_stray_of_nesting (balanced.nesting_eq []) other)

/-- Where a pass gets through, an opening parenthesis without a match is on its stack. -/
theorem mem_of_unclosed {marks : List Placed} {opened : List Nat}
    (passed : nesting [] marks = .ok opened) {offset : Nat} (unclosed : Unclosed marks offset) :
    offset ∈ opened := by
  obtain ⟨before, after, rfl, unmatched⟩ := unclosed
  obtain ⟨later, _, rest⟩ := exists_nesting_of_append passed
  rw [nesting_opening] at rest
  cases behind : nesting [] after with
  | error stop =>
      obtain ⟨inner, outer, same, inside⟩ := balanced_of_nesting behind
      exact absurd inside (unmatched inner stop outer same)
  | ok own =>
      have framed := nesting_frame (offset :: later) behind
      rw [List.nil_append, rest] at framed
      cases framed
      simp

/-- What a pass leaves on top of its stack is the last unclosed opening parenthesis. -/
theorem unclosed_of_nesting {marks : List Placed} {offset : Nat} {outer : List Nat}
    (passed : nesting [] marks = .ok (offset :: outer))
    (sorted : marks.Pairwise (·.offset < ·.offset)) :
    Unclosed marks offset ∧ ∀ other, Unclosed marks other → other ≤ offset := by
  obtain ⟨before, inner, rfl, around, inside⟩ := opens_of_nesting passed
  constructor
  · refine ⟨before, inner, rfl, ?_⟩
    rintro within stop beyond rfl balanced
    have through := inside.nesting_eq []
    rw [nesting_append_ok (balanced.nesting_eq []), nesting_stray] at through
    cases through
  · intro other unclosed
    rcases List.mem_cons.mp (mem_of_unclosed passed unclosed) with rfl | earlier
    · exact Nat.le_refl _
    · have placed := (List.pairwise_append.mp sorted).2.2 _ (around.mem earlier) _ List.mem_cons_self
      exact Nat.le_of_lt placed

/-!
### Lexemes and characters
-/

/-- Tokens are nested as the characters that they are made of. -/
theorem matchParenthesis_eq_nest {placed : Placed} {token : Token}
    (mark : Token.ofMark? placed.character = some token) (opened : List Nat) :
    matchParenthesis opened ⟨token, placed.offset⟩ = nest opened placed := by
  rcases ofMark?_cases mark with ⟨same, rfl⟩ | ⟨same, rfl⟩ | ⟨same, rfl⟩
  · simp [matchParenthesis, nest, same]
  · cases opened <;> simp [matchParenthesis, nest, same]
  · simp [matchParenthesis, nest, same]

/-- A word leaves the nesting as it finds it. -/
theorem nesting_plain {word : List Placed} (plain : ∀ placed ∈ word, Token.ofMark? placed.character = none)
    (opened : List Nat) (marks : List Placed) : nesting opened (word ++ marks) = nesting opened marks := by
  induction word with
  | nil => rfl
  | cons placed word inductionHypothesis =>
      obtain ⟨here, later⟩ := List.forall_mem_cons.mp plain
      have notOpening : placed.character ≠ '(' := fun same => by simp [same, Token.ofMark?] at here
      have notClosing : placed.character ≠ ')' := fun same => by simp [same, Token.ofMark?] at here
      rw [List.cons_append, nesting_other notOpening notClosing, inductionHypothesis later]

/-- The pass over lexemes does what the pass over characters does. -/
theorem Marked.nesting_eq {marks : List Placed} {lexemes : List Lexeme} (marked : Marked marks lexemes)
    (opened : List Nat) : lexemes.foldlM matchParenthesis opened = nesting opened marks := by
  induction marked generalizing opened with
  | nil => rfl
  | @blank placed marks lexemes blank rest inductionHypothesis =>
      have plain : ∀ other ∈ [placed], Token.ofMark? other.character = none := by
        simpa using ofMark?_of_isBlank blank
      rw [inductionHypothesis]
      exact (nesting_plain plain opened marks).symm
  | mark mark rest inductionHypothesis =>
      rw [List.foldlM_cons, nesting_cons, matchParenthesis_eq_nest mark]
      congr 1
      funext later
      exact inductionHypothesis later
  | atom text whole rest inductionHypothesis =>
      have plain := fun placed member => ofMark?_of_isAtomChar (whole placed member)
      rw [← List.cons_append, nesting_plain plain]
      exact inductionHypothesis opened

end LexLisp
