/-
Module: LexLisp.Proofs.Surface.Layout
Purpose: What in a text does not matter to its reader. Blanks and whole comments may be put anywhere but inside an
  atom or a comment, and a quote mark may be written out as a list around what it governs. Both follow from the
  tokens: a gap has none, and the tokens of an expression may be exchanged for others that spell it.
Main exports: tokensOf, tokensOf_append, Layout, tokensOf_relaid, Spells.exchange, SpellsAll.governed,
  Lexed.split, Governs, exists_governs, read_relaid
-/
import LexLisp.Proofs.Surface.Joining

namespace LexLisp

/-!
### Tokens without their places
-/

/-- The tokens of a text. -/
def tokensOf (text : List Char) : List Token :=
  (scan (String.ofList text)).map Lexeme.token

/-- A text has the same tokens wherever it starts. -/
theorem Lexed.shift {offset : Nat} {text : List Char} {lexemes : List Lexeme}
    (lexed : Lexed offset text lexemes) (other : Nat) :
    ∃ shifted, Lexed other text shifted ∧ shifted.map Lexeme.token = lexemes.map Lexeme.token := by
  induction lexed generalizing other with
  | done offset => exact ⟨[], .done other, rfl⟩
  | blank blank _ inductionHypothesis =>
      obtain ⟨shifted, lexed, same⟩ := inductionHypothesis _
      exact ⟨shifted, .blank blank lexed, same⟩
  | comment line ends _ inductionHypothesis =>
      obtain ⟨shifted, lexed, same⟩ := inductionHypothesis _
      exact ⟨shifted, .comment line ends lexed, same⟩
  | mark mark _ inductionHypothesis =>
      obtain ⟨shifted, lexed, same⟩ := inductionHypothesis _
      exact ⟨_, .mark mark lexed, by rw [List.map_cons, List.map_cons, same]⟩
  | atom some whole ends _ inductionHypothesis =>
      obtain ⟨shifted, lexed, same⟩ := inductionHypothesis _
      exact ⟨_, .atom some whole ends lexed, by rw [List.map_cons, List.map_cons, same]⟩

theorem Lexed.tokensOf_eq {offset : Nat} {text : List Char} {lexemes : List Lexeme}
    (lexed : Lexed offset text lexemes) : tokensOf text = lexemes.map Lexeme.token := by
  obtain ⟨shifted, fromStart, same⟩ := lexed.shift 0
  have scanned := lexed_scan (String.ofList text)
  rw [String.toList_ofList] at scanned
  rw [tokensOf, scanned.unique fromStart, same]

/-- The tokens of a text that is cut inside no atom and no comment are those of its parts. -/
theorem tokensOf_append {text more : List Char} (boundary : Boundary text more) :
    tokensOf (text ++ more) = tokensOf text ++ tokensOf more := by
  obtain ⟨lexemes, first⟩ := Lexed.exists text 0
  obtain ⟨others, second⟩ := Lexed.exists more (0 + byteLength text)
  rw [(first.append second boundary).tokensOf_eq, first.tokensOf_eq, second.tokensOf_eq, List.map_append]

theorem tokensOf_blank {c : Char} (blank : isBlank c = true) (text : List Char) :
    tokensOf (c :: text) = tokensOf text := by
  obtain ⟨lexemes, lexed⟩ := Lexed.exists text (0 + c.utf8Size)
  rw [(Lexed.blank blank lexed).tokensOf_eq, lexed.tokensOf_eq]

theorem tokensOf_mark {c : Char} {token : Token} (mark : Token.ofMark? c = some token) (text : List Char) :
    tokensOf (c :: text) = token :: tokensOf text := by
  obtain ⟨lexemes, lexed⟩ := Lexed.exists text (0 + c.utf8Size)
  rw [(Lexed.mark mark lexed).tokensOf_eq, lexed.tokensOf_eq, List.map_cons]

theorem tokensOf_word {word rest : List Char} (isWord : Word word rest) :
    tokensOf (word ++ rest) = .atom (String.ofList word) :: tokensOf rest := by
  obtain ⟨lexemes, lexed⟩ := Lexed.exists rest (0 + byteLength word)
  rw [(Lexed.atom isWord.some isWord.whole isWord.ends lexed).tokensOf_eq, lexed.tokensOf_eq, List.map_cons]

/-- The reader looks at nothing but the tokens. -/
theorem read_eq_ok_iff_tokensOf (source text : String) (forms : List Expr) :
    read source text = .ok forms ↔ formsOfTokens? (tokensOf text.toList) = some forms := by
  rw [tokensOf, String.ofList_toList, read]
  cases formsOfTokens? ((scan text).map Lexeme.token) <;> simp

/-!
### Layout
-/

/-- Blanks, and comments with the newlines that end them. -/
inductive Layout : List Char → Prop where
  | nil : Layout []
  | blank {c : Char} {rest : List Char} (blank : isBlank c = true) (layout : Layout rest) :
      Layout (c :: rest)
  | comment {body rest : List Char} (line : ∀ c ∈ body, c ≠ '\n') (layout : Layout rest) :
      Layout (';' :: (body ++ '\n' :: rest))

/-- The semicolon of a comment is in one of the parts of a text; if it is in the first, the comment takes up all of
    the second. -/
theorem EndsInComment.cases {first second : List Char} (ends : EndsInComment (first ++ second)) :
    (EndsInComment first ∧ '\n' ∉ second) ∨ EndsInComment second := by
  obtain ⟨before, line, same, within⟩ := ends
  rcases List.append_eq_append_iff.mp same with ⟨middle, rfl, split⟩ | ⟨middle, rfl, split⟩
  · exact Or.inr ⟨middle, line, split, within⟩
  · cases middle with
    | nil => exact Or.inr ⟨[], line, split.symm, within⟩
    | cons c middle =>
        obtain ⟨rfl, rfl⟩ := List.cons.inj split
        refine Or.inl ⟨⟨before, middle, rfl, fun c member => within c (by simp [member])⟩, ?_⟩
        exact fun newline => within '\n' (by simp [newline]) rfl

theorem not_endsInComment {text : List Char} (plain : ∀ c ∈ text, c ≠ ';') : ¬ EndsInComment text := by
  rintro ⟨before, line, rfl, _⟩
  exact plain ';' (by simp) rfl

theorem forall_ne_semicolon {word : List Char} (whole : ∀ c ∈ word, isAtomChar c = true) :
    ∀ c ∈ word, c ≠ ';' := by
  rintro c member rfl
  exact absurd (whole ';' member) (by decide)

/-- Behind characters that start no comment it is under way in what is left. -/
theorem EndsInComment.of_plain {first second : List Char} (plain : ∀ c ∈ first, c ≠ ';')
    (ends : EndsInComment (first ++ second)) : EndsInComment second := by
  rcases ends.cases with ⟨here, _⟩ | later
  · exact absurd here (not_endsInComment plain)
  · exact later

/-- Behind a newline it is under way in what is left. -/
theorem EndsInComment.of_newline {first second : List Char} (ends : EndsInComment (first ++ '\n' :: second)) :
    EndsInComment second := by
  rcases ends.cases with ⟨_, absent⟩ | later
  · exact absurd List.mem_cons_self absent
  · exact @of_plain ['\n'] second (by simp) later

theorem Layout.not_endsInComment {gap : List Char} (layout : Layout gap) : ¬ EndsInComment gap := by
  induction layout with
  | nil => exact LexLisp.not_endsInComment (by simp)
  | @blank c rest blank _ inductionHypothesis =>
      intro ends
      have plain : ∀ d ∈ [c], d ≠ ';' := by simpa using ne_semicolon_of_isBlank blank
      exact inductionHypothesis (EndsInComment.of_plain plain ends)
  | @comment body rest _ _ inductionHypothesis =>
      intro ends
      exact inductionHypothesis (@EndsInComment.of_newline (';' :: body) rest ends)

theorem Layout.last {gap : List Char} (layout : Layout gap) :
    ∀ c ∈ gap.getLast?, isAtomChar c = false := by
  have behind : ∀ {c : Char} {rest : List Char}, isAtomChar c = false →
      (∀ d ∈ rest.getLast?, isAtomChar d = false) → ∀ d ∈ (c :: rest).getLast?, isAtomChar d = false := by
    intro c rest here later
    rw [List.getLast?_cons]
    cases last : rest.getLast? with
    | none => simpa using here
    | some d => simpa using later d last
  induction layout with
  | nil => simp
  | blank blank _ inductionHypothesis => exact behind (isAtomChar_of_isBlank blank) inductionHypothesis
  | @comment body rest _ _ inductionHypothesis =>
      rw [← List.cons_append, List.getLast?_append_cons]
      exact behind rfl inductionHypothesis

theorem Layout.head {gap : List Char} (layout : Layout gap) : ∀ c ∈ gap.head?, isAtomChar c = false := by
  cases layout with
  | nil => simp
  | blank blank _ => simpa using isAtomChar_of_isBlank blank
  | comment line _ =>
      have semicolon : isAtomChar ';' = false := rfl
      simpa using semicolon

/-- A text may be cut behind layout. -/
theorem Layout.boundary {gap : List Char} (layout : Layout gap) (more : List Char) : Boundary gap more where
  atoms c last letter := by
    rw [layout.last c last] at letter
    cases letter
  comments ends := absurd ends layout.not_endsInComment

/-- Layout has no tokens. -/
theorem Layout.tokensOf_eq {gap : List Char} (layout : Layout gap) : tokensOf gap = [] := by
  have lexed : ∀ offset, Lexed offset gap [] := by
    induction layout with
    | nil => exact .done
    | blank blank _ inductionHypothesis => exact fun _ => .blank blank (inductionHypothesis _)
    | comment line _ inductionHypothesis =>
        exact fun _ => .comment line (by simp) (.blank (by decide) (inductionHypothesis _))
  exact (lexed 0).tokensOf_eq

/-- Layout begins with what a comment takes up that is under way, and goes on behind a newline. -/
theorem Layout.swallowed {gap : List Char} (layout : Layout gap) :
    ∃ line rest, gap = line ++ rest ∧ (∀ c ∈ line, c ≠ '\n') ∧ Layout rest ∧
      ∀ c ∈ rest.head?, c = '\n' := by
  induction layout with
  | nil => exact ⟨[], [], rfl, by simp, .nil, by simp⟩
  | @blank c rest blank layout inductionHypothesis =>
      by_cases newline : c = '\n'
      · exact ⟨[], c :: rest, rfl, by simp, .blank blank layout, by simpa using newline⟩
      · obtain ⟨line, behind, rfl, within, layout, ends⟩ := inductionHypothesis
        exact ⟨c :: line, behind, rfl, List.forall_mem_cons.mpr ⟨newline, within⟩, layout, ends⟩
  | @comment body rest line layout _ =>
      exact ⟨';' :: body, '\n' :: rest, rfl, List.forall_mem_cons.mpr ⟨by decide, line⟩,
        .blank (by decide) layout, by simp⟩

/-- A comment that is under way takes up what is left of its line. -/
theorem Lexed.prolong {offset : Nat} {text : List Char} {lexemes : List Lexeme}
    (lexed : Lexed offset text lexemes) (ends : EndsInComment text) {line : List Char}
    (within : ∀ c ∈ line, c ≠ '\n') : Lexed offset (text ++ line) lexemes := by
  induction lexed with
  | done offset => exact absurd ends (not_endsInComment (by simp))
  | @blank offset c text lexemes blank _ inductionHypothesis =>
      have plain : ∀ d ∈ [c], d ≠ ';' := by simpa using ne_semicolon_of_isBlank blank
      exact .blank blank (inductionHypothesis (.of_plain plain ends))
  | @comment offset body text lexemes inLine stops rest inductionHypothesis =>
      rw [List.cons_append, List.append_assoc]
      cases text with
      | nil =>
          have whole : ∀ c ∈ body ++ line, c ≠ '\n' := by
            intro c member
            rcases List.mem_append.mp member with here | there
            · exact inLine c here
            · exact within c there
          rw [rest.unique (.done _)]
          simpa using Lexed.comment whole (by simp) (.done _)
      | cons c text =>
          obtain rfl : c = '\n' := stops c rfl
          have later := (@EndsInComment.of_newline (';' :: body) text ends).append ['\n']
          exact .comment inLine (by simp) (inductionHypothesis later)
  | @mark offset c token text lexemes mark _ inductionHypothesis =>
      have plain : ∀ d ∈ [c], d ≠ ';' := by simpa using ne_semicolon_of_ofMark? mark
      exact .mark mark (inductionHypothesis (.of_plain plain ends))
  | @atom offset word text lexemes some whole stops _ inductionHypothesis =>
      have later := EndsInComment.of_plain (forall_ne_semicolon whole) ends
      rw [List.append_assoc]
      refine .atom some whole ?_ (inductionHypothesis later)
      cases text with
      | nil => exact absurd later (not_endsInComment (by simp))
      | cons c text => exact stops

/-- Layout at a place that is inside no atom and no comment changes no token. -/
theorem tokensOf_relaid {text gap more : List Char} (boundary : Boundary text more) (layout : Layout gap) :
    tokensOf (text ++ (gap ++ more)) = tokensOf (text ++ more) := by
  rw [tokensOf_append boundary]
  by_cases ends : EndsInComment text
  · -- The place is at the end of a comment, which takes up the layout as far as to its first newline.
    obtain ⟨line, rest, rfl, within, layoutBehind, stops⟩ := layout.swallowed
    have newline : ∀ c ∈ (rest ++ more).head?, c = '\n' := by
      cases rest with
      | nil => exact boundary.comments ends
      | cons c rest => exact stops
    obtain ⟨lexemes, lexed⟩ := Lexed.exists text 0
    have swallowed : tokensOf (text ++ line) = tokensOf text := by
      rw [(lexed.prolong ends within).tokensOf_eq, lexed.tokensOf_eq]
    rw [List.append_assoc, ← List.append_assoc text, tokensOf_append (boundary_of_newline _ newline),
      swallowed, tokensOf_append (layoutBehind.boundary more), layoutBehind.tokensOf_eq, List.nil_append]
  · have between : Boundary text (gap ++ more) := by
      refine ⟨fun c last letter => ?_, fun ending => absurd ending ends⟩
      cases gap with
      | nil => exact boundary.atoms c last letter
      | cons d gap => exact layout.head
    rw [tokensOf_append between, tokensOf_append (layout.boundary more), layout.tokensOf_eq, List.nil_append]

/-!
### Quote marks
-/

/-- Tokens that spell the same expression may be exchanged. -/
theorem Spells.exchange {first second : List Token} {item : Expr} (one : Spells first item)
    (two : Spells second item) (before after : List Token) :
    formsOfTokens? (before ++ (first ++ after)) = formsOfTokens? (before ++ (second ++ after)) := by
  have alike : ∀ builder : Builder, builder.run (first ++ after) = builder.run (second ++ after) := by
    intro builder
    rw [Builder.run_append (one.run_eq builder.current builder.outer),
      Builder.run_append (two.run_eq builder.current builder.outer)]
  unfold formsOfTokens?
  rw [List.foldlM_append, List.foldlM_append]
  cases before.foldlM Builder.advance? Builder.start with
  | none => rfl
  | some builder => exact congrArg (Option.bind · Builder.forms?) (alike builder)

/-- A quotation is spelled as a list as well. -/
theorem Spells.writtenOut {tokens : List Token} {body : Expr} (spelled : Spells tokens body) :
    Spells (.opening :: .atom "quote" :: (tokens ++ [.closing])) body.quote := by
  have inside : SpellsAll ([.atom "quote"] ++ (tokens ++ [])) [.symbol "quote", body] :=
    .cons (.atom "quote") (.cons spelled .nil)
  rw [List.append_nil] at inside
  exact .list inside

theorem SpellsAll.single {tokens : List Token} {item : Expr} (spelled : SpellsAll tokens [item]) :
    Spells tokens item := by
  cases spelled with
  | cons head tail =>
      cases tail
      rwa [List.append_nil]

/-- An item of two lists in a row is in one of them. -/
theorem exists_of_append_eq {α : Type} {first second before after : List α} {item : α}
    (same : first ++ second = before ++ item :: after) :
    (∃ rest, first = before ++ item :: rest ∧ after = rest ++ second) ∨
      ∃ rest, second = rest ++ item :: after := by
  rcases List.append_eq_append_iff.mp same with ⟨middle, _, inSecond⟩ | ⟨middle, inFirst, split⟩
  · exact Or.inr ⟨middle, inSecond⟩
  · cases middle with
    | nil => exact Or.inr ⟨[], split.symm⟩
    | cons other rest =>
        obtain ⟨rfl, rfl⟩ := List.cons.inj split
        exact Or.inl ⟨rest, inFirst, rfl⟩

mutual

/-- Behind a quote mark in an expression stand the tokens of an expression. -/
theorem Spells.governed {tokens : List Token} {item : Expr} {before after : List Token} :
    Spells tokens item → tokens = before ++ .tick :: after →
      ∃ first others body, after = first ++ others ∧ Spells first body
  | .atom text, same => by
      cases before with
      | nil => cases same
      | cons token before => simp at same
  | @Spells.quoted tokens body spelled, same => by
      cases before with
      | nil => exact ⟨tokens, [], body, by simpa using (List.cons.inj same).2.symm, spelled⟩
      | cons token before => exact spelled.governed (List.cons.inj same).2
  | @Spells.list tokens items spelled, same => by
      cases before with
      | nil => cases same
      | cons token before =>
          rcases exists_of_append_eq (List.cons.inj same).2 with ⟨rest, inside, rfl⟩ | ⟨rest, last⟩
          · obtain ⟨first, others, body, rfl, spells⟩ := spelled.governed inside
            exact ⟨first, others ++ [.closing], body, List.append_assoc .., spells⟩
          · cases rest <;> simp at last

/-- Behind a quote mark among expressions stand the tokens of an expression. -/
theorem SpellsAll.governed {tokens : List Token} {items : List Expr} {before after : List Token} :
    SpellsAll tokens items → tokens = before ++ .tick :: after →
      ∃ first others body, after = first ++ others ∧ Spells first body
  | .nil, same => by simp at same
  | .cons head tail, same => by
      rcases exists_of_append_eq same with ⟨rest, inHead, rfl⟩ | ⟨rest, inTail⟩
      · obtain ⟨first, others, body, rfl, spells⟩ := head.governed inHead
        exact ⟨first, _, body, List.append_assoc .., spells⟩
      · exact tail.governed inTail

end

theorem boundary_nil (more : List Char) : Boundary [] more :=
  ⟨fun _ last => (nomatch last), fun ends => absurd ends (not_endsInComment (by simp))⟩

/-- What stands before a text moves none of its boundaries, if no comment starts there and no atom is left open. -/
theorem Boundary.behind {text more first : List Char} (boundary : Boundary text more)
    (plain : ∀ c ∈ first, c ≠ ';') (closed : text = [] → ∀ c ∈ first.getLast?, isAtomChar c = false) :
    Boundary (first ++ text) more where
  atoms c last letter := by
    cases text with
    | nil =>
        rw [List.append_nil] at last
        rw [closed rfl c last] at letter
        cases letter
    | cons d text =>
        rw [List.getLast?_append_cons] at last
        exact boundary.atoms c last letter
  comments ends := boundary.comments (.of_plain plain ends)

/-- A text can be cut between any two of its lexemes. -/
theorem Lexed.split {offset : Nat} {text : List Char} {lexemes first others : List Lexeme}
    (lexed : Lexed offset text lexemes) (same : lexemes = first ++ others) :
    ∃ before after, text = before ++ after ∧ Boundary before after ∧ Lexed offset before first := by
  induction lexed generalizing first with
  | done offset =>
      rw [(List.append_eq_nil_iff.mp same.symm).1]
      exact ⟨[], [], rfl, boundary_nil [], .done offset⟩
  | @blank offset c text lexemes blank _ inductionHypothesis =>
      obtain ⟨before, after, rfl, boundary, lexed⟩ := inductionHypothesis same
      refine ⟨c :: before, after, rfl, ?_, .blank blank lexed⟩
      exact @Boundary.behind _ _ [c] boundary (by simpa using ne_semicolon_of_isBlank blank)
        fun _ => by simpa using isAtomChar_of_isBlank blank
  | @comment offset body text lexemes line ends _ inductionHypothesis =>
      obtain ⟨before, after, rfl, boundary, lexed⟩ := inductionHypothesis same
      cases before with
      | nil =>
          rw [lexed.unique (.done _)]
          exact ⟨[], _, rfl, boundary_nil _, .done offset⟩
      | cons c before =>
          obtain rfl : c = '\n' := ends c rfl
          refine ⟨';' :: (body ++ '\n' :: before), after, by simp, ?_, .comment line (by simp) lexed⟩
          constructor
          · intro c last
            rw [← List.cons_append, List.getLast?_append_cons] at last
            exact boundary.atoms c last
          · intro ending
            exact boundary.comments ((@EndsInComment.of_newline (';' :: body) before ending).append ['\n'])
  | @mark offset c token text lexemes mark _ inductionHypothesis =>
      cases first with
      | nil => exact ⟨[], c :: text, rfl, boundary_nil _, .done offset⟩
      | cons lexeme first =>
          obtain ⟨rfl, behind⟩ := List.cons.inj same
          obtain ⟨before, after, rfl, boundary, lexed⟩ := inductionHypothesis behind
          refine ⟨c :: before, after, rfl, ?_, .mark mark lexed⟩
          exact @Boundary.behind _ _ [c] boundary (by simpa using ne_semicolon_of_ofMark? mark)
            fun _ => by simpa using isAtomChar_of_ofMark? mark
  | @atom offset word text lexemes some whole ends _ inductionHypothesis =>
      cases first with
      | nil => exact ⟨[], word ++ text, rfl, boundary_nil _, .done offset⟩
      | cons lexeme first =>
          obtain ⟨rfl, behind⟩ := List.cons.inj same
          obtain ⟨before, after, rfl, boundary, lexed⟩ := inductionHypothesis behind
          have plain := forall_ne_semicolon whole
          refine ⟨word ++ before, after, (List.append_assoc ..).symm, ?_, ?_⟩
          · cases before with
            | nil =>
                refine ⟨fun _ _ _ => ends, fun ending => ?_⟩
                exact absurd ending (not_endsInComment (by simpa using plain))
            | cons c before => exact boundary.behind plain fun none => nomatch none
          · refine .atom some whole ?_ lexed
            cases before with
            | nil => exact fun _ none => nomatch none
            | cons c before => exact ends

/-- Some text behind a quote mark, up to a place that is inside no atom and no comment, holds one expression and no
    more: it is what the mark governs. -/
structure Governs (datum behind : String) : Prop where
  single : ∃ body, readOne datum = .ok body
  boundary : Boundary datum.toList behind.toList

/-- A text holds exactly one expression if it is read as a program of one form. -/
theorem readOne_eq_ok_iff_read (text : String) (body : Expr) :
    readOne text = .ok body ↔ read singleSource text = .ok [body] := by
  unfold readOne
  simp only [Bind.bind, Except.bind]
  cases read singleSource text with
  | error error => simp
  | ok forms =>
      match forms with
      | [] => simp
      | [form] => simp
      | first :: next :: rest => simp

theorem readOne_eq_ok_iff (text : String) (body : Expr) :
    readOne text = .ok body ↔ Spells (tokensOf text.toList) body := by
  rw [readOne_eq_ok_iff_read, read_eq_ok_iff_tokensOf, formsOfTokens?_eq_some_iff]
  refine ⟨SpellsAll.single, fun spelled => ?_⟩
  have alone : SpellsAll (tokensOf text.toList ++ []) [body] := .cons spelled .nil
  rwa [List.append_nil] at alone

/-- Outside comments a text may be cut before a mark. -/
theorem boundary_of_mark {text : List Char} (outside : ¬ EndsInComment text) {c : Char} {token : Token}
    (mark : Token.ofMark? c = some token) (more : List Char) : Boundary text (c :: more) := by
  refine ⟨fun _ _ _ d head => ?_, fun ends => absurd ends outside⟩
  obtain rfl : c = d := Option.some.inj head
  exact isAtomChar_of_ofMark? mark

theorem tokensOf_quoted {before : List Char} (outside : ¬ EndsInComment before) (rest : List Char) :
    tokensOf (before ++ '\x27' :: rest) = tokensOf before ++ .tick :: tokensOf rest := by
  rw [tokensOf_append (boundary_of_mark outside rfl rest), tokensOf_mark rfl]

theorem tokensOf_writtenOut {before : List Char} (outside : ¬ EndsInComment before)
    (datum behind : List Char) :
    tokensOf (before ++ '(' :: ("quote".toList ++ ' ' :: (datum ++ '\n' :: ')' :: behind))) =
      tokensOf before ++ (.opening :: .atom "quote" :: (tokensOf datum ++ [.closing]) ++ tokensOf behind) := by
  have word : Word "quote".toList (' ' :: (datum ++ '\n' :: ')' :: behind)) :=
    ⟨by simp, by simp [isAtomChar, isBlank], by simp [isAtomChar, isBlank]⟩
  rw [tokensOf_append (boundary_of_mark outside rfl _), tokensOf_mark rfl, tokensOf_word word,
    tokensOf_blank rfl, tokensOf_append (boundary_of_newline datum (by simp)), tokensOf_blank rfl,
    tokensOf_mark rfl]
  simp

/-- A quote mark outside comments, in a text that is read, governs some of what follows. -/
theorem exists_governs {before : List Char} {rest : String} {forms : List Expr}
    (outside : ¬ EndsInComment before)
    (accepted : formsOfTokens? (tokensOf (before ++ '\x27' :: rest.toList)) = some forms) :
    ∃ datum behind, rest = datum ++ behind ∧ Governs datum behind := by
  rw [tokensOf_quoted outside, formsOfTokens?_eq_some_iff] at accepted
  obtain ⟨first, others, body, same, spells⟩ := accepted.governed rfl
  obtain ⟨lexemes, lexed⟩ := Lexed.exists rest.toList 0
  rw [lexed.tokensOf_eq] at same
  obtain ⟨governed, left, rfl, rfl, rfl⟩ := List.map_eq_append_iff.mp same
  obtain ⟨datum, behind, cut, boundary, lexed⟩ := lexed.split rfl
  refine ⟨String.ofList datum, String.ofList behind, ?_, ⟨body, ?_⟩, ?_⟩
  · rw [← String.ofList_append, ← cut, String.ofList_toList]
  · rwa [readOne_eq_ok_iff, String.toList_ofList, lexed.tokensOf_eq]
  · rwa [String.toList_ofList, String.toList_ofList]

/-- Layout does not matter, nor whether a quotation is written with a mark. In a text that is read, blanks and whole
    comments may be put at every place that is inside no atom and no comment. Every quote mark outside comments
    governs an expression behind it, and the mark may be replaced by a list around that expression. The forms that
    are read stay the same. -/
theorem read_relaid {source before after : String} {forms : List Expr}
    (accepted : read source (before ++ after) = .ok forms) :
    (∀ gap : String, Boundary before.toList after.toList → Layout gap.toList →
      read source (before ++ gap ++ after) = .ok forms) ∧
    ∀ rest : String, after = "\x27" ++ rest → ¬ EndsInComment before.toList →
      (∃ datum behind, rest = datum ++ behind ∧ Governs datum behind) ∧
      ∀ datum behind, rest = datum ++ behind → Governs datum behind →
        read source (before ++ "(quote " ++ datum ++ "\n)" ++ behind) = .ok forms := by
  rw [read_eq_ok_iff_tokensOf, String.toList_append] at accepted
  refine ⟨?_, ?_⟩
  · intro gap boundary layout
    rw [read_eq_ok_iff_tokensOf, String.toList_append, String.toList_append, List.append_assoc,
      tokensOf_relaid boundary layout]
    exact accepted
  · rintro rest rfl outside
    have marked : ("\x27" ++ rest).toList = '\x27' :: rest.toList := by simp
    rw [marked] at accepted
    refine ⟨exists_governs outside accepted, ?_⟩
    rintro datum behind rfl ⟨⟨body, single⟩, boundary⟩
    have spelled := (readOne_eq_ok_iff datum body).mp single
    have quoted : tokensOf (before.toList ++ '\x27' :: (datum.toList ++ behind.toList)) =
        tokensOf before.toList ++ (.tick :: tokensOf datum.toList ++ tokensOf behind.toList) := by
      rw [tokensOf_quoted outside, tokensOf_append boundary, List.cons_append]
    have writtenOut : (before ++ "(quote " ++ datum ++ "\n)" ++ behind).toList =
        before.toList ++ '(' :: ("quote".toList ++ ' ' :: (datum.toList ++ '\n' :: ')' :: behind.toList)) := by
      simp [String.toList_append]
    rw [String.toList_append, quoted, ← spelled.writtenOut.exchange spelled.quoted] at accepted
    rw [read_eq_ok_iff_tokensOf, writtenOut, tokensOf_writtenOut outside]
    exact accepted

/-- A comment that looks like the end of the list goes before the quote mark of a text, and the mark is written
    out. -/
theorem read_relaid_marked :
    let forms : List Expr :=
      [.list [.symbol "a", .quote (.list [.symbol "b", .symbol "c"]), .symbol "d"]]
    read "s" "(a \x27(b c) d)" = .ok forms ∧ read "s" "(a ;x)\n\x27(b c) d)" = .ok forms ∧
      read "s" "(a (quote (b c)\n) d)" = .ok forms := by
  intro forms
  have accepted : read "s" ("(a " ++ "\x27(b c) d)") = .ok forms := by rfl
  have outside : ¬ EndsInComment "(a ".toList := not_endsInComment (by simp)
  have layout : Layout ";x)\n".toList := @Layout.comment ['x', ')'] [] (by simp) .nil
  have governs : Governs "(b c)" " d)" := by
    refine ⟨⟨.list [.symbol "b", .symbol "c"], by rfl⟩, fun c last letter => ?_, fun ends => ?_⟩
    · cases last
      cases letter
    · exact absurd ends (not_endsInComment (by simp))
  obtain ⟨relaid, quoted⟩ := read_relaid accepted
  exact ⟨accepted, relaid ";x)\n" (boundary_of_mark outside rfl _) layout,
    (quoted "(b c) d)" rfl outside).2 "(b c)" " d)" rfl governs⟩

end LexLisp
