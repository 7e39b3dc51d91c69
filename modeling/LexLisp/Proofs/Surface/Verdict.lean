/-
Module: LexLisp.Proofs.Surface.Verdict
Purpose: What the reader says of every text. A text is accepted if its parentheses match and every quote mark
  has something to quote. Otherwise the report names the first stray closing parenthesis, or else the last
  unclosed opening one, or else the place where the first quote mark misses its expression.
Main exports: Missing, Dangling, Builder.accepts_iff, read_cases, Rejects, read_verdict
-/
import LexLisp.Proofs.Surface.Grammar
import LexLisp.Proofs.Surface.Nesting

namespace LexLisp

/-!
### Quote marks without an expression
-/

/-- Behind blanks comes a closing parenthesis at this offset, or the text ends there. -/
def Missing (textEnd : Nat) (marks : List Placed) (offset : Nat) : Prop :=
  ∃ blanks behind, marks = blanks ++ behind ∧ (∀ placed ∈ blanks, isBlank placed.character = true) ∧
    ((behind = [] ∧ offset = textEnd) ∨ ∃ rest, behind = ⟨')', offset⟩ :: rest)

/-- At `tick` stands a quote mark with nothing to quote; `offset` is where the next thing stands. -/
def Dangling (textEnd : Nat) (marks : List Placed) (tick offset : Nat) : Prop :=
  ∃ before after, marks = before ++ ⟨'\x27', tick⟩ :: after ∧ Missing textEnd after offset

theorem missing_nil {textEnd offset : Nat} : Missing textEnd [] offset ↔ offset = textEnd := by
  constructor
  · intro missing
    rcases missing with ⟨blanks, behind, same, _, ⟨_, atEnd⟩ | ⟨rest, rfl⟩⟩
    · exact atEnd
    · simp at same
  · rintro rfl
    exact ⟨[], [], rfl, by simp, Or.inl ⟨rfl, rfl⟩⟩

/-- Behind a character an expression is missing where it is missing behind blanks, or at a closing parenthesis. -/
theorem missing_cons {textEnd offset : Nat} {placed : Placed} {marks : List Placed} :
    Missing textEnd (placed :: marks) offset ↔
      (isBlank placed.character = true ∧ Missing textEnd marks offset) ∨ placed = ⟨')', offset⟩ := by
  constructor
  · intro missing
    obtain ⟨blanks, behind, same, allBlank, next⟩ := missing
    cases blanks with
    | nil =>
        rcases next with ⟨rfl, _⟩ | ⟨rest, rfl⟩
        · cases same
        · exact Or.inr (List.cons.inj same).1
    | cons first blanks =>
        obtain ⟨rfl, rfl⟩ := List.cons.inj same
        obtain ⟨here, later⟩ := List.forall_mem_cons.mp allBlank
        exact Or.inl ⟨here, blanks, behind, rfl, later, next⟩
  · intro either
    rcases either with ⟨here, blanks, behind, rfl, later, next⟩ | rfl
    · exact ⟨placed :: blanks, behind, rfl, List.forall_mem_cons.mpr ⟨here, later⟩, next⟩
    · exact ⟨[], _, rfl, by simp, Or.inr ⟨marks, rfl⟩⟩

theorem dangling_nil {textEnd tick offset : Nat} : ¬ Dangling textEnd [] tick offset := by
  rintro ⟨before, after, same, _⟩
  simp at same

/-- A tick dangles if nothing stands behind it, or further on. -/
theorem dangling_cons {textEnd tick offset : Nat} {placed : Placed} {marks : List Placed} :
    Dangling textEnd (placed :: marks) tick offset ↔
      (placed = ⟨'\x27', tick⟩ ∧ Missing textEnd marks offset) ∨
        Dangling textEnd marks tick offset := by
  constructor
  · intro dangling
    obtain ⟨before, after, same, missing⟩ := dangling
    cases before with
    | nil =>
        obtain ⟨rfl, rfl⟩ := List.cons.inj same
        exact Or.inl ⟨rfl, missing⟩
    | cons first before =>
        obtain ⟨rfl, rfl⟩ := List.cons.inj same
        exact Or.inr ⟨before, after, rfl, missing⟩
  · intro either
    rcases either with ⟨rfl, missing⟩ | ⟨before, after, rfl, missing⟩
    · exact ⟨[], marks, rfl, missing⟩
    · exact ⟨placed :: before, after, rfl, missing⟩

/-- The next lexeme is a closing parenthesis at this offset, or there is none and the text ends there. -/
def LexemeMissing (textEnd : Nat) : List Lexeme → Nat → Prop
  | [], offset => offset = textEnd
  | lexeme :: _, offset => lexeme = ⟨.closing, offset⟩

/-- Among the lexemes is a quote mark with nothing to quote. -/
def LexemeDangling (textEnd : Nat) : List Lexeme → Nat → Nat → Prop
  | [], _, _ => False
  | lexeme :: rest, tick, offset =>
    (lexeme = ⟨.tick, tick⟩ ∧ LexemeMissing textEnd rest offset) ∨ LexemeDangling textEnd rest tick offset

/-- Characters and lexemes agree on where an expression is missing. -/
theorem Marked.missing_iff {marks : List Placed} {lexemes : List Lexeme} (marked : Marked marks lexemes)
    (textEnd offset : Nat) : Missing textEnd marks offset ↔ LexemeMissing textEnd lexemes offset := by
  induction marked with
  | nil => exact missing_nil
  | @blank placed marks lexemes blank _ inductionHypothesis =>
      have notClosing : placed ≠ ⟨')', offset⟩ := by
        rintro rfl
        cases blank
      simp [missing_cons, blank, notClosing, inductionHypothesis]
  | @mark placed token marks lexemes mark _ _ =>
      obtain ⟨character, place⟩ := placed
      rcases ofMark?_cases mark with ⟨rfl, rfl⟩ | ⟨rfl, rfl⟩ | ⟨rfl, rfl⟩ <;>
        simp [missing_cons, LexemeMissing, isBlank]
  | @atom first word marks lexemes text whole _ _ =>
      have letter := whole first List.mem_cons_self
      have notBlank : isBlank first.character = false := by
        cases blank : isBlank first.character with
        | false => rfl
        | true => rw [isAtomChar_of_isBlank blank] at letter; cases letter
      have notClosing : first ≠ ⟨')', offset⟩ := by
        rintro rfl
        cases letter
      simp [missing_cons, notBlank, notClosing, LexemeMissing]

/-- No tick dangles in a word. -/
theorem dangling_word {word : List Placed} (plain : ∀ placed ∈ word, isAtomChar placed.character = true)
    (textEnd : Nat) (marks : List Placed) (tick offset : Nat) :
    Dangling textEnd (word ++ marks) tick offset ↔ Dangling textEnd marks tick offset := by
  induction word with
  | nil => exact Iff.rfl
  | cons placed word inductionHypothesis =>
      obtain ⟨here, later⟩ := List.forall_mem_cons.mp plain
      have notTick : placed ≠ ⟨'\x27', tick⟩ := by
        rintro rfl
        cases here
      simp [dangling_cons, notTick, inductionHypothesis later]

/-- Characters and lexemes agree on the ticks that dangle. -/
theorem Marked.dangling_iff {marks : List Placed} {lexemes : List Lexeme} (marked : Marked marks lexemes)
    (textEnd tick offset : Nat) :
    Dangling textEnd marks tick offset ↔ LexemeDangling textEnd lexemes tick offset := by
  induction marked with
  | nil => exact ⟨fun dangling => dangling_nil dangling, fun none => none.elim⟩
  | @blank placed marks lexemes blank _ inductionHypothesis =>
      have notTick : placed ≠ ⟨'\x27', tick⟩ := by
        rintro rfl
        cases blank
      simp [dangling_cons, notTick, inductionHypothesis]
  | @mark placed token marks lexemes mark rest inductionHypothesis =>
      obtain ⟨character, place⟩ := placed
      rcases ofMark?_cases mark with ⟨rfl, rfl⟩ | ⟨rfl, rfl⟩ | ⟨rfl, rfl⟩ <;>
        simp [dangling_cons, LexemeDangling, inductionHypothesis, rest.missing_iff]
  | @atom first word marks lexemes text whole _ inductionHypothesis =>
      rw [← List.cons_append, dangling_word whole]
      simp [LexemeDangling, inductionHypothesis]

/-- Lexemes start at characters of the text, in their order. -/
theorem Marked.starts_sublist {marks : List Placed} {lexemes : List Lexeme}
    (marked : Marked marks lexemes) :
    (lexemes.map Lexeme.start).Sublist (marks.map Placed.offset) := by
  induction marked with
  | nil => exact .slnil
  | blank _ _ inductionHypothesis => exact .cons _ inductionHypothesis
  | mark _ _ inductionHypothesis => exact .cons_cons _ inductionHypothesis
  | atom _ _ _ inductionHypothesis =>
      rw [List.map_cons, List.map_cons, List.map_append]
      exact .cons_cons _ (inductionHypothesis.trans (List.sublist_append_right _ _))

/-- A tick that dangles is one of the lexemes. -/
theorem LexemeDangling.mem {textEnd : Nat} {lexemes : List Lexeme} {tick offset : Nat}
    (dangling : LexemeDangling textEnd lexemes tick offset) : tick ∈ lexemes.map Lexeme.start := by
  induction lexemes with
  | nil => exact dangling.elim
  | cons lexeme rest inductionHypothesis =>
      rcases dangling with ⟨rfl, _⟩ | later
      · exact List.mem_cons_self
      · exact List.mem_cons_of_mem _ (inductionHypothesis later)

/-- The reader reports a tick that dangles where the expression is missing. -/
theorem danglingOffset_tick {textEnd start place : Nat} {rest : List Lexeme}
    (missing : LexemeMissing textEnd rest place) :
    danglingOffset textEnd (⟨.tick, start⟩ :: rest) = place := by
  cases rest with
  | nil => exact Eq.symm missing
  | cons next rest =>
      obtain rfl : next = ⟨.closing, place⟩ := missing
      rfl

/-- It passes over every other lexeme. -/
theorem danglingOffset_other {textEnd : Nat} {lexeme : Lexeme} {rest : List Lexeme}
    (other : ∀ place, lexeme.token = .tick → ¬ LexemeMissing textEnd rest place) :
    danglingOffset textEnd (lexeme :: rest) = danglingOffset textEnd rest := by
  obtain ⟨token, start⟩ := lexeme
  cases token with
  | opening | closing | atom => rfl
  | tick =>
      cases rest with
      | nil => exact absurd rfl (other textEnd rfl)
      | cons next rest =>
          have notClosing : next.token ≠ .closing := by
            intro same
            obtain ⟨token, place⟩ := next
            cases same
            exact other place rfl rfl
          exact if_neg notClosing

/-- The search for a quote mark with nothing to quote finds the first one. -/
theorem danglingOffset_of_dangling {textEnd : Nat} {lexemes : List Lexeme}
    (sorted : (lexemes.map Lexeme.start).Pairwise (· < ·)) {tick offset : Nat}
    (dangling : LexemeDangling textEnd lexemes tick offset) :
    ∃ first, LexemeDangling textEnd lexemes first (danglingOffset textEnd lexemes) ∧
      ∀ other place, LexemeDangling textEnd lexemes other place → first ≤ other := by
  induction lexemes with
  | nil => exact dangling.elim
  | cons lexeme rest inductionHypothesis =>
      obtain ⟨before, sortedRest⟩ := List.pairwise_cons.mp sorted
      by_cases here : ∃ start place, lexeme = ⟨.tick, start⟩ ∧ LexemeMissing textEnd rest place
      · obtain ⟨start, place, rfl, missing⟩ := here
        refine ⟨start, Or.inl ⟨rfl, ?_⟩, ?_⟩
        · rwa [danglingOffset_tick missing]
        · intro other place dangling
          rcases dangling with ⟨same, _⟩ | later
          · cases same
            exact Nat.le_refl _
          · exact Nat.le_of_lt (before other later.mem)
      · have notHere : ∀ {start place}, ¬ (lexeme = ⟨.tick, start⟩ ∧ LexemeMissing textEnd rest place) :=
          fun found => here ⟨_, _, found⟩
        have skipped : danglingOffset textEnd (lexeme :: rest) = danglingOffset textEnd rest := by
          apply danglingOffset_other
          intro place isTick missing
          exact notHere ⟨(by rw [← isTick] : lexeme = ⟨.tick, lexeme.start⟩), missing⟩
        obtain ⟨first, found, least⟩ :=
          inductionHypothesis sortedRest (dangling.resolve_left notHere)
        rw [skipped]
        refine ⟨first, Or.inr found, ?_⟩
        intro other place dangling
        exact least other place (dangling.resolve_left notHere)

/-!
### The builder

What the builder accepts from a state depends on the number of its open lists and on whether quote marks wait
in the innermost one. `Complete` says the same of the lexemes to come; the two take the same steps.
-/

/-- The parentheses close what is open and match otherwise, quote marks that wait get an expression, and so
    does every later one. -/
structure Complete (textEnd : Nat) (opened : List Nat) (ticks : Nat) (lexemes : List Lexeme) : Prop where
  matching : lexemes.foldlM matchParenthesis opened = .ok []
  waiting : ticks ≠ 0 → ∀ offset, ¬ LexemeMissing textEnd lexemes offset
  later : ∀ tick offset, ¬ LexemeDangling textEnd lexemes tick offset

section Steps

variable {textEnd : Nat} {opened : List Nat} {ticks start : Nat} {lexemes : List Lexeme}

/-- A text may end where nothing is open and no tick waits. -/
theorem complete_nil : Complete textEnd opened ticks [] ↔ opened = [] ∧ ticks = 0 := by
  constructor
  · intro complete
    refine ⟨Except.ok.inj complete.matching, ?_⟩
    by_contra waiting
    exact complete.waiting waiting textEnd rfl
  · rintro ⟨rfl, rfl⟩
    exact ⟨rfl, fun waiting => absurd rfl waiting, fun _ _ none => none⟩

/-- A token that starts afresh: nothing waits behind it. -/
theorem complete_fresh {token : Token} {moved : List Nat} (notTick : token ≠ .tick)
    (notClosing : token ≠ .closing) (step : matchParenthesis opened ⟨token, start⟩ = .ok moved) :
    Complete textEnd opened ticks (⟨token, start⟩ :: lexemes) ↔ Complete textEnd moved 0 lexemes := by
  have folded : List.foldlM matchParenthesis opened (⟨token, start⟩ :: lexemes) =
      lexemes.foldlM matchParenthesis moved := by
    rw [List.foldlM_cons, step]
    rfl
  constructor
  · intro complete
    exact ⟨folded ▸ complete.matching, fun waiting => absurd rfl waiting,
      fun tick offset dangling => complete.later tick offset (Or.inr dangling)⟩
  · intro complete
    refine ⟨folded ▸ complete.matching, ?_, ?_⟩
    · intro _ offset closing
      exact notClosing (congrArg Lexeme.token closing)
    · intro tick offset dangling
      rcases dangling with ⟨isTick, _⟩ | dangling
      · exact notTick (congrArg Lexeme.token isTick)
      · exact complete.later tick offset dangling

/-- A closing parenthesis has nothing to close at the outermost level. -/
theorem not_complete_closing : ¬ Complete textEnd [] ticks (⟨.closing, start⟩ :: lexemes) := by
  intro complete
  cases complete.matching

/-- A closing parenthesis ends a list in which no tick waits, and is an expression for the ticks outside. -/
theorem complete_closing {place : Nat} :
    Complete textEnd (place :: opened) ticks (⟨.closing, start⟩ :: lexemes) ↔
      ticks = 0 ∧ Complete textEnd opened 0 lexemes := by
  constructor
  · intro complete
    constructor
    · by_contra waiting
      exact complete.waiting waiting start rfl
    · exact ⟨complete.matching, fun waiting => absurd rfl waiting,
        fun tick offset dangling => complete.later tick offset (Or.inr dangling)⟩
  · rintro ⟨rfl, complete⟩
    refine ⟨complete.matching, fun waiting => absurd rfl waiting, ?_⟩
    intro tick offset dangling
    rcases dangling with ⟨isTick, _⟩ | dangling
    · cases isTick
    · exact complete.later tick offset dangling

/-- One more tick waits. -/
theorem complete_tick :
    Complete textEnd opened ticks (⟨.tick, start⟩ :: lexemes) ↔
      Complete textEnd opened (ticks + 1) lexemes := by
  constructor
  · intro complete
    exact ⟨complete.matching, fun _ offset missing => complete.later start offset (Or.inl ⟨rfl, missing⟩),
      fun tick offset dangling => complete.later tick offset (Or.inr dangling)⟩
  · intro complete
    refine ⟨complete.matching, ?_, ?_⟩
    · intro _ offset closing
      cases closing
    · intro tick offset dangling
      rcases dangling with ⟨_, missing⟩ | dangling
      · exact complete.waiting (Nat.succ_ne_zero _) offset missing
      · exact complete.later tick offset dangling

end Steps

namespace Builder

/-- The tokens make a program of what is built. -/
def Accepts (builder : Builder) (tokens : List Token) : Prop :=
  ((builder.run tokens).bind forms?).isSome = true

/-- The builder is done where it is at the outermost level and no tick waits. -/
theorem accepts_nil (builder : Builder) :
    builder.Accepts [] ↔ builder.outer = [] ∧ builder.current.ticks = 0 := by
  by_cases closed : builder.outer = [] <;> by_cases waiting : builder.current.ticks = 0 <;>
    simp [Accepts, run, forms?, Level.items?, closed, waiting]

theorem not_accepts_closing {builder : Builder} (outermost : builder.outer = []) (tokens : List Token) :
    ¬ builder.Accepts (.closing :: tokens) := by
  simp [Accepts, run, advance?, outermost]

/-- The builder closes a list in which no tick waits and adds it to the level outside. -/
theorem accepts_closing {builder : Builder} {parent : Level} {outer : List Level}
    (inside : builder.outer = parent :: outer) (tokens : List Token) :
    builder.Accepts (.closing :: tokens) ↔ builder.current.ticks = 0 ∧
      Accepts ⟨parent.add (.list builder.current.reversed.reverse), outer⟩ tokens := by
  by_cases waiting : builder.current.ticks = 0 <;>
    simp [Accepts, run, advance?, inside, Level.items?, waiting]

/-- From any state the builder accepts exactly what completes the state. -/
theorem accepts_iff (textEnd : Nat) (lexemes : List Lexeme) (builder : Builder) (opened : List Nat)
    (depth : opened.length = builder.outer.length) :
    builder.Accepts (lexemes.map Lexeme.token) ↔
      Complete textEnd opened builder.current.ticks lexemes := by
  induction lexemes generalizing builder opened with
  | nil =>
      have closed : builder.outer = [] ↔ opened = [] := by
        rw [← List.length_eq_zero_iff, ← depth, List.length_eq_zero_iff]
      rw [List.map_nil, accepts_nil, complete_nil, closed]
  | cons lexeme lexemes inductionHypothesis =>
      obtain ⟨token, start⟩ := lexeme
      cases token with
      | opening =>
          rw [complete_fresh (by decide) (by decide) rfl]
          exact inductionHypothesis ⟨.empty, builder.current :: builder.outer⟩ (start :: opened)
            (by simp [depth])
      | closing =>
          cases inside : builder.outer with
          | nil =>
              rw [inside, List.length_nil, List.length_eq_zero_iff] at depth
              subst depth
              exact iff_of_false (not_accepts_closing inside _) not_complete_closing
          | cons parent outer =>
              cases opened with
              | nil => simp [inside] at depth
              | cons place opened =>
                  rw [inside, List.length_cons, List.length_cons, Nat.succ_inj] at depth
                  rw [List.map_cons, accepts_closing inside, complete_closing]
                  exact and_congr_right fun _ => inductionHypothesis _ opened depth
      | tick =>
          rw [complete_tick]
          exact inductionHypothesis ⟨⟨builder.current.reversed, builder.current.ticks + 1⟩, builder.outer⟩
            opened depth
      | atom text =>
          rw [complete_fresh Token.noConfusion Token.noConfusion rfl]
          exact inductionHypothesis ⟨builder.current.add (.ofAtom text), builder.outer⟩ opened depth

end Builder

/-!
### Verdicts
-/

section Texts

variable (source text : String)

theorem marked_visible : Marked (visible text) (scan text) :=
  (lexed_scan text).marked

theorem sorted_visible : (visible text).Pairwise (·.offset < ·.offset) :=
  pairwise_visibleFrom false 0 text.toList

theorem sorted_scan : ((scan text).map Lexeme.start).Pairwise (· < ·) := by
  apply List.Pairwise.sublist (marked_visible text).starts_sublist
  exact List.pairwise_map.mpr (sorted_visible text)

/-- A text has forms if and only if its parentheses match and no quote mark dangles. -/
theorem formsOfTokens?_isSome_iff :
    (formsOfTokens? ((scan text).map Lexeme.token)).isSome = true ↔
      nesting [] (visible text) = .ok [] ∧
        ∀ tick offset, ¬ Dangling text.utf8ByteSize (visible text) tick offset := by
  have marked := marked_visible text
  refine (Builder.accepts_iff text.utf8ByteSize (scan text) .start [] rfl).trans ?_
  simp only [marked.dangling_iff, ← marked.nesting_eq]
  constructor
  · intro complete
    exact ⟨complete.matching, complete.later⟩
  · rintro ⟨matching, none⟩
    exact ⟨matching, fun waiting => absurd rfl waiting, none⟩

/-- The four things that can happen to a text. -/
theorem read_cases :
    (∃ offset, nesting [] (visible text) = .error offset ∧
      read source text = .error ⟨source, .strayClosing offset⟩) ∨
    (∃ offset outer, nesting [] (visible text) = .ok (offset :: outer) ∧
      read source text = .error ⟨source, .unclosedList offset⟩) ∨
    (∃ tick offset, nesting [] (visible text) = .ok [] ∧
      Dangling text.utf8ByteSize (visible text) tick offset ∧
      (∀ other place, Dangling text.utf8ByteSize (visible text) other place → tick ≤ other) ∧
      read source text = .error ⟨source, .danglingTick offset⟩) ∨
    (∃ forms, nesting [] (visible text) = .ok [] ∧
      (∀ tick offset, ¬ Dangling text.utf8ByteSize (visible text) tick offset) ∧
      read source text = .ok forms) := by
  have accepts := formsOfTokens?_isSome_iff text
  have matching := (marked_visible text).nesting_eq []
  cases found : formsOfTokens? ((scan text).map Lexeme.token) with
  | some forms =>
      rw [found] at accepts
      obtain ⟨passed, none⟩ := accepts.mp rfl
      exact Or.inr (Or.inr (Or.inr ⟨forms, passed, none, by simp [read, found]⟩))
  | none =>
      rw [found] at accepts
      have rejected : read source text =
          .error ⟨source, diagnose text.utf8ByteSize (scan text)⟩ := by
        simp [read, found]
      unfold diagnose unbalanced? at rejected
      rw [matching] at rejected
      cases passed : nesting [] (visible text) with
      | error offset =>
          rw [passed] at rejected
          exact Or.inl ⟨offset, rfl, rejected⟩
      | ok opened =>
          rw [passed] at rejected accepts
          cases opened with
          | cons offset outer => exact Or.inr (Or.inl ⟨offset, outer, rfl, rejected⟩)
          | nil =>
              have some : ∃ tick offset, LexemeDangling text.utf8ByteSize (scan text) tick offset := by
                by_contra none
                refine absurd (accepts.mpr ⟨rfl, ?_⟩) Bool.false_ne_true
                intro tick offset dangling
                exact none ⟨tick, offset, ((marked_visible text).dangling_iff _ _ _).mp dangling⟩
              obtain ⟨tick, offset, dangling⟩ := some
              obtain ⟨first, here, least⟩ := danglingOffset_of_dangling (sorted_scan text) dangling
              simp only [← (marked_visible text).dangling_iff] at here least
              exact Or.inr (Or.inr (Or.inl ⟨first, _, rfl, here, least, rejected⟩))

end Texts

/-- The reader rejects a text with these words, and points at so many bytes at this offset. -/
def Rejects (source text message : String) (offset length : Nat) : Prop :=
  ∃ error, read source text = .error error ∧ error.source = source ∧
    error.fault.message = message ∧ error.fault.extent = (offset, length)

/-- The text can be cut around the bytes that are meant. -/
def Locates (text : String) (offset length : Nat) : Prop :=
  ∃ before inside after : String, text = before ++ inside ++ after ∧
    before.utf8ByteSize = offset ∧ inside.utf8ByteSize = length

/-- A visible character can be pointed at, and so can the place before it. -/
theorem locates_of_mem_visible {text : String} {placed : Placed} (member : placed ∈ visible text) :
    Locates text placed.offset placed.character.utf8Size ∧ Locates text placed.offset 0 := by
  obtain ⟨before, after, same, place⟩ := exists_of_mem_visibleFrom member
  rw [Nat.zero_add, ← utf8ByteSize_ofList] at place
  constructor
  · refine ⟨.ofList before, .singleton placed.character, .ofList after, ?_, place.symm, by simp⟩
    rw [← String.toList_inj]
    simp [same]
  · refine ⟨.ofList before, "", .ofList (placed.character :: after), ?_, place.symm, rfl⟩
    rw [← String.toList_inj]
    simp [same]

/-- A quote mark that dangles points at a place of the text. -/
theorem Dangling.locates {text : String} {tick offset : Nat}
    (dangling : Dangling text.utf8ByteSize (visible text) tick offset) : Locates text offset 0 := by
  obtain ⟨before, after, same, blanks, behind, rfl, _, ⟨_, rfl⟩ | ⟨rest, rfl⟩⟩ := dangling
  · exact ⟨text, "", "", by simp, rfl, rfl⟩
  · exact (locates_of_mem_visible (by simp [same] : ⟨')', offset⟩ ∈ visible text)).2

section Reports

variable (source : String) {text : String}

/-- The first stray closing parenthesis is reported. -/
theorem rejects_stray (some : ∃ offset, Stray (visible text) offset) :
    ∃ offset, Stray (visible text) offset ∧ (∀ other, Stray (visible text) other → offset ≤ other) ∧
      Rejects source text "unexpected ')'" offset 1 := by
  have clean : ∀ {opened}, nesting [] (visible text) ≠ .ok opened := by
    intro opened passed
    obtain ⟨offset, stray⟩ := some
    exact not_stray_of_nesting passed offset stray
  rcases read_cases source text with
    ⟨offset, stopped, rejected⟩ | ⟨_, _, passed, _⟩ | ⟨_, _, passed, _⟩ | ⟨_, passed, _⟩
  · obtain ⟨stray, least⟩ := stray_of_nesting stopped (sorted_visible text)
    exact ⟨offset, stray, least, _, rejected, rfl, rfl, rfl⟩
  · exact absurd passed clean
  · exact absurd passed clean
  · exact absurd passed clean

/-- Without stray parentheses, the last unclosed opening one is reported. -/
theorem rejects_unclosed (noStray : ¬ ∃ offset, Stray (visible text) offset)
    (some : ∃ offset, Unclosed (visible text) offset) :
    ∃ offset, Unclosed (visible text) offset ∧
      (∀ other, Unclosed (visible text) other → other ≤ offset) ∧
        Rejects source text "unclosed list" offset 1 := by
  have unfinished : nesting [] (visible text) ≠ .ok [] := by
    intro passed
    obtain ⟨offset, unclosed⟩ := some
    exact absurd (mem_of_unclosed passed unclosed) List.not_mem_nil
  rcases read_cases source text with
    ⟨offset, stopped, _⟩ | ⟨offset, outer, passed, rejected⟩ | ⟨_, _, passed, _⟩ | ⟨_, passed, _⟩
  · exact absurd ⟨offset, (stray_of_nesting stopped (sorted_visible text)).1⟩ noStray
  · obtain ⟨unclosed, greatest⟩ := unclosed_of_nesting passed (sorted_visible text)
    exact ⟨offset, unclosed, greatest, _, rejected, rfl, rfl, rfl⟩
  · exact absurd passed unfinished
  · exact absurd passed unfinished

/-- Where the parentheses match, what follows the first dangling quote mark is reported, and a text without one
    is accepted. -/
theorem read_of_matching (noStray : ¬ ∃ offset, Stray (visible text) offset)
    (noUnclosed : ¬ ∃ offset, Unclosed (visible text) offset) :
    (∃ tick offset, Dangling text.utf8ByteSize (visible text) tick offset ∧
      (∀ other place, Dangling text.utf8ByteSize (visible text) other place → tick ≤ other) ∧
        Rejects source text "expected quoted, list, number, or symbol" offset 0) ∨
    ((¬ ∃ tick offset, Dangling text.utf8ByteSize (visible text) tick offset) ∧
      ∃ forms, read source text = .ok forms) := by
  rcases read_cases source text with
    ⟨offset, stopped, _⟩ | ⟨offset, outer, passed, _⟩ |
      ⟨tick, offset, _, dangling, least, rejected⟩ | ⟨forms, _, none, accepted⟩
  · exact absurd ⟨offset, (stray_of_nesting stopped (sorted_visible text)).1⟩ noStray
  · exact absurd ⟨offset, (unclosed_of_nesting passed (sorted_visible text)).1⟩ noUnclosed
  · exact Or.inl ⟨tick, offset, dangling, least, _, rejected, rfl, rfl, rfl⟩
  · exact Or.inr ⟨fun ⟨tick, offset, dangling⟩ => none tick offset dangling, forms, accepted⟩

/-- A report has one of three texts and points into the text that was read. -/
theorem located_of_read_error {error : ReadError} (failed : read source text = .error error) :
    error.source = source ∧
      error.fault.message ∈
        ["unexpected ')'", "unclosed list", "expected quoted, list, number, or symbol"] ∧
      Locates text error.fault.extent.1 error.fault.extent.2 := by
  rcases read_cases source text with
    ⟨offset, stopped, rejected⟩ | ⟨offset, outer, passed, rejected⟩ |
      ⟨tick, offset, _, dangling, _, rejected⟩ | ⟨forms, _, _, accepted⟩
  · obtain ⟨before, after, same, _⟩ := (stray_of_nesting stopped (sorted_visible text)).1
    cases failed.symm.trans rejected
    exact ⟨rfl, List.mem_cons_self,
      (locates_of_mem_visible (by simp [same] : ⟨')', offset⟩ ∈ visible text)).1⟩
  · obtain ⟨before, after, same, _⟩ := (unclosed_of_nesting passed (sorted_visible text)).1
    cases failed.symm.trans rejected
    exact ⟨rfl, List.mem_cons_of_mem _ List.mem_cons_self,
      (locates_of_mem_visible (by simp [same] : ⟨'(', offset⟩ ∈ visible text)).1⟩
  · cases failed.symm.trans rejected
    exact ⟨rfl, List.mem_cons_of_mem _ (List.mem_cons_of_mem _ List.mem_cons_self), dangling.locates⟩
  · cases failed.symm.trans accepted

end Reports

/-- The reader accepts exactly what the grammar derives, and its verdict on any other text is this. If some
    closing parenthesis is stray, the first of them is reported. Otherwise, if some opening one is unclosed,
    the last of them. Otherwise, if some quote mark has nothing to quote, what follows the first of them.
    Otherwise the text is accepted. No report has other words, and each points into the text, between
    characters. -/
theorem read_verdict (source text : String) :
    (∀ forms, read source text = .ok forms ↔ Program text.toList forms) ∧
    ((∃ offset, Stray (visible text) offset) →
      ∃ offset, Stray (visible text) offset ∧ (∀ other, Stray (visible text) other → offset ≤ other) ∧
        Rejects source text "unexpected ')'" offset 1) ∧
    ((¬ ∃ offset, Stray (visible text) offset) → (∃ offset, Unclosed (visible text) offset) →
      ∃ offset, Unclosed (visible text) offset ∧
        (∀ other, Unclosed (visible text) other → other ≤ offset) ∧
          Rejects source text "unclosed list" offset 1) ∧
    ((¬ ∃ offset, Stray (visible text) offset) → (¬ ∃ offset, Unclosed (visible text) offset) →
      (∃ tick offset, Dangling text.utf8ByteSize (visible text) tick offset) →
        ∃ tick offset, Dangling text.utf8ByteSize (visible text) tick offset ∧
          (∀ other place, Dangling text.utf8ByteSize (visible text) other place → tick ≤ other) ∧
            Rejects source text "expected quoted, list, number, or symbol" offset 0) ∧
    ((¬ ∃ offset, Stray (visible text) offset) → (¬ ∃ offset, Unclosed (visible text) offset) →
      (¬ ∃ tick offset, Dangling text.utf8ByteSize (visible text) tick offset) →
        ∃ forms, read source text = .ok forms) ∧
    ∀ error, read source text = .error error → error.source = source ∧
      error.fault.message ∈
        ["unexpected ')'", "unclosed list", "expected quoted, list, number, or symbol"] ∧
          Locates text error.fault.extent.1 error.fault.extent.2 := by
  refine ⟨read_eq_ok_iff source text, rejects_stray source, rejects_unclosed source, ?_, ?_,
    fun _ failed => located_of_read_error source failed⟩
  · intro noStray noUnclosed some
    rcases read_of_matching source noStray noUnclosed with rejected | ⟨none, _⟩
    · exact rejected
    · exact absurd some none
  · intro noStray noUnclosed none
    rcases read_of_matching source noStray noUnclosed with ⟨tick, offset, dangling, _⟩ | ⟨_, accepted⟩
    · exact absurd ⟨tick, offset, dangling⟩ none
    · exact accepted

/-- A closing parenthesis in a comment closes nothing and is not stray, and an unclosed list is reported before
    the quote mark that dangles in it. -/
theorem read_verdict_unclosed :
    (¬ ∃ offset, Stray (visible ";)\n(\x27") offset) ∧
      Dangling 5 (visible ";)\n(\x27") 4 5 ∧ Rejects "t" ";)\n(\x27" "unclosed list" 3 1 := by
  have passed : nesting [] (visible ";)\n(\x27") = .ok [3] := by decide
  have noStray : ¬ ∃ offset, Stray (visible ";)\n(\x27") offset := by
    rintro ⟨offset, stray⟩
    exact not_stray_of_nesting passed offset stray
  have some : ∃ offset, Unclosed (visible ";)\n(\x27") offset :=
    ⟨3, (unclosed_of_nesting passed (sorted_visible _)).1⟩
  obtain ⟨offset, unclosed, _, rejected⟩ := (read_verdict "t" ";)\n(\x27").2.2.1 noStray some
  obtain rfl : offset = 3 := List.mem_singleton.mp (mem_of_unclosed passed unclosed)
  exact ⟨noStray, ⟨[⟨'\n', 2⟩, ⟨'(', 3⟩], [], rfl, missing_nil.mpr rfl⟩, rejected⟩

end LexLisp
