/-
Module: LexLisp.Proofs.Surface.Lexing
Purpose: What the scanner finds, without the scanner. A text is a row of blanks, comments, marks and atoms; an
  atom goes on as long as it can, and a comment to the end of its line. Every text can be taken apart in that
  way, and the lexemes of a scan are the marks and atoms of it.
Main exports: byteLength, Lexed, lexed_scan, Placed, visible
-/
import LexLisp.Surface.Token

namespace LexLisp

/-- How many bytes some characters take. -/
def byteLength : List Char → Nat
  | [] => 0
  | c :: characters => c.utf8Size + byteLength characters

theorem utf8ByteSize_ofList (characters : List Char) :
    (String.ofList characters).utf8ByteSize = byteLength characters := by
  induction characters with
  | nil => rfl
  | cons c characters inductionHypothesis =>
      rw [String.ofList_cons, String.utf8ByteSize_append, inductionHypothesis]
      simp [byteLength]

/-!
### Kinds of characters
-/

theorem isAtomChar_of_isBlank {c : Char} (blank : isBlank c = true) : isAtomChar c = false := by
  simp [isAtomChar, blank]

/-- The marks are the parentheses and the quote mark. -/
theorem ofMark?_cases {c : Char} {token : Token} (mark : Token.ofMark? c = some token) :
    (c = '(' ∧ token = .opening) ∨ (c = ')' ∧ token = .closing) ∨ (c = '\x27' ∧ token = .tick) := by
  unfold Token.ofMark? at mark
  split at mark
  · next same => exact Or.inl ⟨same, (Option.some.inj mark).symm⟩
  · split at mark
    · next same => exact Or.inr (Or.inl ⟨same, (Option.some.inj mark).symm⟩)
    · split at mark
      · next same => exact Or.inr (Or.inr ⟨same, (Option.some.inj mark).symm⟩)
      · cases mark

theorem isAtomChar_of_ofMark? {c : Char} {token : Token} (mark : Token.ofMark? c = some token) :
    isAtomChar c = false := by
  rcases ofMark?_cases mark with ⟨rfl, _⟩ | ⟨rfl, _⟩ | ⟨rfl, _⟩ <;> rfl

theorem ofMark?_of_isAtomChar {c : Char} (letter : isAtomChar c = true) : Token.ofMark? c = none := by
  cases mark : Token.ofMark? c with
  | none => rfl
  | some token => exact absurd letter (by simp [isAtomChar_of_ofMark? mark])

theorem ne_semicolon_of_isBlank {c : Char} (blank : isBlank c = true) : c ≠ ';' := by
  rintro rfl
  exact absurd blank (by decide)

theorem ofMark?_of_isBlank {c : Char} (blank : isBlank c = true) : Token.ofMark? c = none := by
  cases mark : Token.ofMark? c with
  | none => rfl
  | some token =>
      simp only [isBlank, Bool.or_eq_true, beq_iff_eq] at blank
      rcases blank with ((rfl | rfl) | rfl) | rfl <;> cases mark

theorem ne_semicolon_of_ofMark? {c : Char} {token : Token} (mark : Token.ofMark? c = some token) :
    c ≠ ';' := by
  rintro rfl
  cases mark

/-- A character that no atom holds is a blank, a mark or the start of a comment. -/
theorem break_cases {c : Char} (other : isAtomChar c = false) :
    isBlank c = true ∨ (∃ token, Token.ofMark? c = some token) ∨ c = ';' := by
  simp only [isAtomChar, Bool.not_eq_false', Bool.or_eq_true, beq_iff_eq] at other
  rcases other with (((blank | rfl) | rfl) | rfl) | rfl
  · exact Or.inl blank
  · exact Or.inr (Or.inl ⟨.opening, rfl⟩)
  · exact Or.inr (Or.inl ⟨.closing, rfl⟩)
  · exact Or.inr (Or.inl ⟨.tick, rfl⟩)
  · exact Or.inr (Or.inr rfl)

/-!
### Taking a text apart
-/

/-- The lexemes of a text that starts at a byte offset. -/
inductive Lexed : Nat → List Char → List Lexeme → Prop where
  | done (offset : Nat) : Lexed offset [] []
  | blank {offset : Nat} {c : Char} {text : List Char} {lexemes : List Lexeme}
      (blank : isBlank c = true) (rest : Lexed (offset + c.utf8Size) text lexemes) :
      Lexed offset (c :: text) lexemes
  | comment {offset : Nat} {body text : List Char} {lexemes : List Lexeme}
      (line : ∀ c ∈ body, c ≠ '\n') (ends : ∀ c ∈ text.head?, c = '\n')
      (rest : Lexed (offset + byteLength (';' :: body)) text lexemes) :
      Lexed offset (';' :: (body ++ text)) lexemes
  | mark {offset : Nat} {c : Char} {token : Token} {text : List Char} {lexemes : List Lexeme}
      (mark : Token.ofMark? c = some token) (rest : Lexed (offset + c.utf8Size) text lexemes) :
      Lexed offset (c :: text) (⟨token, offset⟩ :: lexemes)
  | atom {offset : Nat} {word text : List Char} {lexemes : List Lexeme} (some : word ≠ [])
      (whole : ∀ c ∈ word, isAtomChar c = true) (ends : ∀ c ∈ text.head?, isAtomChar c = false)
      (rest : Lexed (offset + byteLength word) text lexemes) :
      Lexed offset (word ++ text) (⟨.atom (String.ofList word), offset⟩ :: lexemes)

/-- The longest run of items that pass a test, and what is left. -/
theorem exists_run {α : Type} (test : α → Bool) (items : List α) :
    ∃ run rest, items = run ++ rest ∧ (∀ item ∈ run, test item = true) ∧
      ∀ item ∈ rest.head?, test item = false := by
  refine ⟨items.takeWhile test, items.dropWhile test, List.takeWhile_append_dropWhile.symm,
    List.all_eq_true.mp List.all_takeWhile, ?_⟩
  intro item member
  have stopped := List.head?_dropWhile_not test items
  rw [Option.mem_def.mp member] at stopped
  simpa using stopped

/-- Every text can be taken apart. -/
theorem Lexed.exists (text : List Char) (offset : Nat) : ∃ lexemes, Lexed offset text lexemes := by
  induction size : text.length using Nat.strongRecOn generalizing text offset with
  | ind length inductionHypothesis =>
      subst size
      cases text with
      | nil => exact ⟨[], .done offset⟩
      | cons c text =>
          have next : ∀ (rest : List Char) (offset : Nat), rest.length ≤ text.length →
              ∃ lexemes, Lexed offset rest lexemes := by
            intro rest offset shorter
            exact inductionHypothesis rest.length (Nat.lt_succ_of_le shorter) rest offset rfl
          cases kind : isAtomChar c with
          | true =>
              obtain ⟨word, rest, rfl, whole, ends⟩ := exists_run isAtomChar text
              obtain ⟨lexemes, lexed⟩ := next rest (offset + byteLength (c :: word)) (by simp)
              have letters : ∀ d ∈ c :: word, isAtomChar d = true :=
                List.forall_mem_cons.mpr ⟨kind, whole⟩
              exact ⟨_, .atom (List.cons_ne_nil c word) letters ends lexed⟩
          | false =>
              rcases break_cases kind with blank | ⟨token, mark⟩ | rfl
              · obtain ⟨lexemes, lexed⟩ := next text (offset + c.utf8Size) (Nat.le_refl _)
                exact ⟨lexemes, .blank blank lexed⟩
              · obtain ⟨lexemes, lexed⟩ := next text (offset + c.utf8Size) (Nat.le_refl _)
                exact ⟨_, .mark mark lexed⟩
              · obtain ⟨body, rest, rfl, line, ends⟩ := exists_run (· != '\n') text
                obtain ⟨lexemes, lexed⟩ := next rest (offset + byteLength (';' :: body)) (by simp)
                exact ⟨lexemes, .comment (by simpa using line) (by simpa using ends) lexed⟩

/-!
### The scanner
-/

namespace Scanner

theorem run_comment {body : List Char} (line : ∀ c ∈ body, c ≠ '\n') (offset : Nat)
    (reversed : List Lexeme) :
    run ⟨.comment, offset, reversed⟩ body = ⟨.comment, offset + byteLength body, reversed⟩ := by
  induction body generalizing offset with
  | nil => rfl
  | cons c body inductionHypothesis =>
      obtain ⟨here, later⟩ := List.forall_mem_cons.mp line
      have step : advance ⟨.comment, offset, reversed⟩ c = ⟨.comment, offset + c.utf8Size, reversed⟩ := by
        simp [advance, here]
      rw [run, List.foldl_cons, step]
      exact (inductionHypothesis later (offset + c.utf8Size)).trans (by rw [byteLength, Nat.add_assoc])

theorem run_word {word : List Char} (whole : ∀ c ∈ word, isAtomChar c = true) (start offset : Nat)
    (letters : List Char) (reversed : List Lexeme) :
    run ⟨.inAtom start letters, offset, reversed⟩ word =
      ⟨.inAtom start (word.reverse ++ letters), offset + byteLength word, reversed⟩ := by
  induction word generalizing offset letters with
  | nil => rfl
  | cons c word inductionHypothesis =>
      obtain ⟨here, later⟩ := List.forall_mem_cons.mp whole
      have step : advance ⟨.inAtom start letters, offset, reversed⟩ c =
          ⟨.inAtom start (c :: letters), offset + c.utf8Size, reversed⟩ := by
        simp [advance, here]
      rw [run, List.foldl_cons, step]
      refine (inductionHypothesis later (offset + c.utf8Size) (c :: letters)).trans ?_
      simp [byteLength, Nat.add_assoc]

/-- At the end of a line a comment is over. -/
theorem closed_run_comment {text : List Char} (ends : ∀ c ∈ text.head?, c = '\n') (offset : Nat)
    (reversed : List Lexeme) :
    (run ⟨.comment, offset, reversed⟩ text).closed =
      (run ⟨.between, offset, reversed⟩ text).closed := by
  cases text with
  | nil => rfl
  | cons c text =>
      obtain rfl : c = '\n' := ends c rfl
      rfl

/-- Where an atom ends, it is the next lexeme. -/
theorem closed_run_inAtom {text : List Char} (ends : ∀ c ∈ text.head?, isAtomChar c = false)
    (start offset : Nat) (letters : List Char) (reversed : List Lexeme) :
    (run ⟨.inAtom start letters, offset, reversed⟩ text).closed =
      (run ⟨.between, offset, ⟨.atom (String.ofList letters.reverse), start⟩ :: reversed⟩
        text).closed := by
  cases text with
  | nil => rfl
  | cons c text =>
      have other := ends c rfl
      have step : advance ⟨.inAtom start letters, offset, reversed⟩ c =
          advance ⟨.between, offset, ⟨.atom (String.ofList letters.reverse), start⟩ :: reversed⟩ c := by
        simp [advance, other, lexemesAfterBreak, closed]
      simp only [run, List.foldl_cons, step]

/-- A scan from between two tokens finds the lexemes of the text. -/
theorem closed_run {offset : Nat} {text : List Char} {lexemes : List Lexeme}
    (lexed : Lexed offset text lexemes) (reversed : List Lexeme) :
    (run ⟨.between, offset, reversed⟩ text).closed = lexemes.reverse ++ reversed := by
  induction lexed generalizing reversed with
  | done offset => rfl
  | @blank offset c text lexemes blank rest inductionHypothesis =>
      have step : advance ⟨.between, offset, reversed⟩ c =
          ⟨.between, offset + c.utf8Size, reversed⟩ := by
        simp [advance, isAtomChar_of_isBlank blank, modeAfterBreak, ne_semicolon_of_isBlank blank,
          lexemesAfterBreak, ofMark?_of_isBlank blank, closed]
      rw [run, List.foldl_cons, step]
      exact inductionHypothesis reversed
  | @comment offset body text lexemes line ends rest inductionHypothesis =>
      have step : advance ⟨.between, offset, reversed⟩ ';' =
          ⟨.comment, offset + Char.utf8Size ';', reversed⟩ := rfl
      rw [run, List.foldl_cons, step, ← run, run_append, run_comment line, closed_run_comment ends,
        Nat.add_assoc]
      exact inductionHypothesis reversed
  | @mark offset c token text lexemes mark rest inductionHypothesis =>
      have step : advance ⟨.between, offset, reversed⟩ c =
          ⟨.between, offset + c.utf8Size, ⟨token, offset⟩ :: reversed⟩ := by
        simp [advance, isAtomChar_of_ofMark? mark, modeAfterBreak, ne_semicolon_of_ofMark? mark,
          lexemesAfterBreak, mark, closed]
      rw [run, List.foldl_cons, step, List.reverse_cons, List.append_assoc]
      exact inductionHypothesis (⟨token, offset⟩ :: reversed)
  | @atom offset word text lexemes some whole ends rest inductionHypothesis =>
      cases word with
      | nil => exact absurd rfl some
      | cons c word =>
          obtain ⟨here, later⟩ := List.forall_mem_cons.mp whole
          have step : advance ⟨.between, offset, reversed⟩ c =
              ⟨.inAtom offset [c], offset + c.utf8Size, reversed⟩ := by
            simp [advance, here]
          rw [List.cons_append, run, List.foldl_cons, step, ← run, run_append, run_word later,
            closed_run_inAtom ends, Nat.add_assoc]
          simp only [List.reverse_append, List.reverse_reverse, List.singleton_append,
            List.reverse_cons, List.append_assoc]
          exact inductionHypothesis _

end Scanner

/-- A text has one row of lexemes. -/
theorem Lexed.unique {offset : Nat} {text : List Char} {lexemes others : List Lexeme}
    (one : Lexed offset text lexemes) (two : Lexed offset text others) : lexemes = others := by
  have same := (Scanner.closed_run one []).symm.trans (Scanner.closed_run two [])
  simpa using same

/-- The lexemes of a scan are those of the text. -/
theorem lexed_scan (text : String) : Lexed 0 text.toList (scan text) := by
  obtain ⟨lexemes, lexed⟩ := Lexed.exists text.toList 0
  have found := Scanner.closed_run lexed []
  rw [List.append_nil] at found
  unfold scan Scanner.start
  rwa [found, List.reverse_reverse]

/-!
### What stands outside comments
-/

/-- A character and the byte offset at which it stands. -/
structure Placed where
  character : Char
  offset : Nat
deriving Repr, Inhabited, DecidableEq

/-- The characters outside comments, of a text that starts at a byte offset and may start inside a comment. A
    comment hides its semicolon and what follows, up to the newline. -/
def visibleFrom (inComment : Bool) (offset : Nat) : List Char → List Placed
  | [] => []
  | c :: text =>
    if c = '\n' then ⟨c, offset⟩ :: visibleFrom false (offset + c.utf8Size) text
    else if inComment || c = ';' then visibleFrom true (offset + c.utf8Size) text
    else ⟨c, offset⟩ :: visibleFrom false (offset + c.utf8Size) text

/-- The characters of a text outside comments. -/
def visible (text : String) : List Placed :=
  visibleFrom false 0 text.toList

example : visible "a;(\n)" = [⟨'a', 0⟩, ⟨'\n', 3⟩, ⟨')', 4⟩] := by
  decide

theorem visibleFrom_cons {c : Char} (other : c ≠ ';') (offset : Nat) (text : List Char) :
    visibleFrom false offset (c :: text) =
      ⟨c, offset⟩ :: visibleFrom false (offset + c.utf8Size) text := by
  simp [visibleFrom, other]

theorem visibleFrom_comment {body text : List Char} (line : ∀ c ∈ body, c ≠ '\n')
    (ends : ∀ c ∈ text.head?, c = '\n') (offset : Nat) :
    visibleFrom true offset (body ++ text) = visibleFrom false (offset + byteLength body) text := by
  induction body generalizing offset with
  | nil =>
      cases text with
      | nil => rfl
      | cons c text =>
          obtain rfl : c = '\n' := ends c rfl
          rfl
  | cons c body inductionHypothesis =>
      obtain ⟨here, later⟩ := List.forall_mem_cons.mp line
      simp [visibleFrom, here, inductionHypothesis later, byteLength, Nat.add_assoc]

theorem visibleFrom_append {word : List Char} (plain : ∀ c ∈ word, c ≠ ';') (offset : Nat)
    (text : List Char) :
    visibleFrom false offset (word ++ text) =
      visibleFrom false offset word ++ visibleFrom false (offset + byteLength word) text := by
  induction word generalizing offset with
  | nil => rfl
  | cons c word inductionHypothesis =>
      obtain ⟨here, later⟩ := List.forall_mem_cons.mp plain
      simp [visibleFrom_cons here, inductionHypothesis later, byteLength, Nat.add_assoc]

/-- A visible character is a character of the text, and its offset is the length of what stands before it. -/
theorem exists_of_mem_visibleFrom {inComment : Bool} {offset : Nat} {text : List Char} {placed : Placed}
    (member : placed ∈ visibleFrom inComment offset text) :
    ∃ before after, text = before ++ placed.character :: after ∧
      placed.offset = offset + byteLength before := by
  induction text generalizing inComment offset with
  | nil => cases member
  | cons c text inductionHypothesis =>
      have later : ∀ {inside : Bool}, placed ∈ visibleFrom inside (offset + c.utf8Size) text →
          ∃ before after, c :: text = before ++ placed.character :: after ∧
            placed.offset = offset + byteLength before := by
        intro inside member
        obtain ⟨before, after, rfl, place⟩ := inductionHypothesis member
        exact ⟨c :: before, after, rfl, by rw [place, byteLength, Nat.add_assoc]⟩
      have here : placed = ⟨c, offset⟩ → ∃ before after, c :: text =
          before ++ placed.character :: after ∧ placed.offset = offset + byteLength before := by
        rintro rfl
        exact ⟨[], text, rfl, rfl⟩
      unfold visibleFrom at member
      split at member
      · exact (List.mem_cons.mp member).elim here later
      · split at member
        · exact later member
        · exact (List.mem_cons.mp member).elim here later

/-- Visible characters are listed by their offsets. -/
theorem pairwise_visibleFrom (inComment : Bool) (offset : Nat) (text : List Char) :
    (visibleFrom inComment offset text).Pairwise (·.offset < ·.offset) := by
  induction text generalizing inComment offset with
  | nil => exact .nil
  | cons c text inductionHypothesis =>
      have first : (⟨c, offset⟩ :: visibleFrom false (offset + c.utf8Size) text).Pairwise
          (fun one two => one.offset < two.offset) := by
        refine .cons ?_ (inductionHypothesis false _)
        intro placed member
        obtain ⟨before, after, _, place⟩ := exists_of_mem_visibleFrom member
        have := Char.utf8Size_pos c
        simp only [place]
        omega
      unfold visibleFrom
      split
      · exact first
      · split
        · exact inductionHypothesis true _
        · exact first

/-- The lexemes of visible characters. -/
inductive Marked : List Placed → List Lexeme → Prop where
  | nil : Marked [] []
  | blank {placed : Placed} {marks : List Placed} {lexemes : List Lexeme}
      (blank : isBlank placed.character = true) (rest : Marked marks lexemes) :
      Marked (placed :: marks) lexemes
  | mark {placed : Placed} {token : Token} {marks : List Placed} {lexemes : List Lexeme}
      (mark : Token.ofMark? placed.character = some token) (rest : Marked marks lexemes) :
      Marked (placed :: marks) (⟨token, placed.offset⟩ :: lexemes)
  | atom {first : Placed} {word marks : List Placed} {lexemes : List Lexeme} (text : String)
      (whole : ∀ placed ∈ first :: word, isAtomChar placed.character = true)
      (rest : Marked marks lexemes) :
      Marked (first :: (word ++ marks)) (⟨.atom text, first.offset⟩ :: lexemes)

theorem Lexed.marked {offset : Nat} {text : List Char} {lexemes : List Lexeme}
    (lexed : Lexed offset text lexemes) : Marked (visibleFrom false offset text) lexemes := by
  induction lexed with
  | done offset => exact .nil
  | blank blank rest inductionHypothesis =>
      rw [visibleFrom_cons (ne_semicolon_of_isBlank blank)]
      exact .blank blank inductionHypothesis
  | @comment offset body text lexemes line ends rest inductionHypothesis =>
      have hidden : visibleFrom false offset (';' :: (body ++ text)) =
          visibleFrom true (offset + Char.utf8Size ';') (body ++ text) := rfl
      rw [hidden, visibleFrom_comment line ends, Nat.add_assoc]
      exact inductionHypothesis
  | mark mark rest inductionHypothesis =>
      rw [visibleFrom_cons (ne_semicolon_of_ofMark? mark)]
      exact .mark mark inductionHypothesis
  | @atom offset word text lexemes some whole ends rest inductionHypothesis =>
      have plain : ∀ c ∈ word, c ≠ ';' := by
        rintro c member rfl
        exact absurd (whole ';' member) (by decide)
      cases word with
      | nil => exact absurd rfl some
      | cons c word =>
          obtain ⟨here, later⟩ := List.forall_mem_cons.mp plain
          rw [visibleFrom_append plain, visibleFrom_cons here]
          refine .atom _ ?_ inductionHypothesis
          intro placed member
          rw [← visibleFrom_cons here] at member
          obtain ⟨before, after, same, _⟩ := exists_of_mem_visibleFrom member
          exact whole placed.character (same ▸ by simp)

end LexLisp
