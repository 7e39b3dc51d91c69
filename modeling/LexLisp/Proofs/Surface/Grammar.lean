/-
Module: LexLisp.Proofs.Surface.Grammar
Purpose: The grammar of programs. Over tokens: an expression is an atom, a quote mark before an expression, or a
  list in parentheses; a program is a row of expressions. Over characters: the same, with gaps of blanks and
  comments before each token, and with atoms and comments that go on as long as they can. The reader accepts
  exactly what the grammar derives, with the trees that it derives.
Main exports: Spells, SpellsAll, formsOfTokens?_eq_some_iff, Gap, Item, Items, Program, read_eq_ok_iff
-/
import LexLisp.Proofs.Surface.Lexing
import LexLisp.Surface.Reader
import Mathlib.Data.List.Induction

namespace LexLisp

/-!
### Tokens
-/

mutual

/-- The tokens of an expression. -/
inductive Spells : List Token → Expr → Prop where
  | atom (text : String) : Spells [.atom text] (.ofAtom text)
  | quoted {tokens : List Token} {body : Expr} (spelled : Spells tokens body) :
      Spells (.tick :: tokens) body.quote
  | list {tokens : List Token} {items : List Expr} (spelled : SpellsAll tokens items) :
      Spells (.opening :: (tokens ++ [.closing])) (.list items)

/-- The tokens of expressions one after another. -/
inductive SpellsAll : List Token → List Expr → Prop where
  | nil : SpellsAll [] []
  | cons {first rest : List Token} {item : Expr} {items : List Expr} (head : Spells first item)
      (tail : SpellsAll rest items) : SpellsAll (first ++ rest) (item :: items)

end

theorem SpellsAll.append {first second : List Token} {items more : List Expr} :
    SpellsAll first items → SpellsAll second more → SpellsAll (first ++ second) (items ++ more)
  | .nil, two => two
  | .cons head tail, two => by
      rw [List.append_assoc, List.cons_append]
      exact .cons head (tail.append two)

theorem SpellsAll.snoc {first second : List Token} {items : List Expr} {item : Expr}
    (one : SpellsAll first items) (two : Spells second item) :
    SpellsAll (first ++ second) (items ++ [item]) := by
  have last : SpellsAll (second ++ []) [item] := .cons two .nil
  rw [List.append_nil] at last
  exact one.append last

/-- Quote marks before an expression. -/
theorem Spells.ticks {tokens : List Token} {item : Expr} (spelled : Spells tokens item) (ticks : Nat) :
    Spells (List.replicate ticks .tick ++ tokens) (Level.quoted ticks item) := by
  induction ticks generalizing tokens item with
  | zero => exact spelled
  | succ ticks inductionHypothesis =>
      rw [List.replicate_succ', List.append_assoc]
      exact inductionHypothesis spelled.quoted

/-!
### The builder follows the grammar
-/

namespace Builder

/-- The state after more tokens. -/
abbrev run (builder : Builder) (tokens : List Token) : Option Builder :=
  tokens.foldlM advance? builder

theorem run_append {builder later : Builder} {first : List Token} (begun : builder.run first = some later)
    (second : List Token) : builder.run (first ++ second) = later.run second := by
  unfold run at begun ⊢
  rw [List.foldlM_append, begun]
  rfl

end Builder

mutual

/-- The tokens of an expression add the expression to the current list. -/
theorem Spells.run_eq {tokens : List Token} {item : Expr} (level : Level) (outer : List Level) :
    Spells tokens item → Builder.run ⟨level, outer⟩ tokens = some ⟨level.add item, outer⟩
  | .atom text => rfl
  | .quoted spelled => spelled.run_eq ⟨level.reversed, level.ticks + 1⟩ outer
  | @Spells.list tokens items spelled => by
      have begun : Builder.run ⟨.empty, level :: outer⟩ tokens = some ⟨⟨items.reverse, 0⟩, level :: outer⟩ := by
        have inner := spelled.run_eq [] (level :: outer)
        rwa [List.append_nil] at inner
      have opened : Builder.run ⟨level, outer⟩ (.opening :: (tokens ++ [.closing])) =
          Builder.run ⟨.empty, level :: outer⟩ (tokens ++ [.closing]) := rfl
      rw [opened, Builder.run_append begun]
      simp [Builder.run, Builder.advance?, Level.items?]

/-- The tokens of expressions add them all. -/
theorem SpellsAll.run_eq {tokens : List Token} {items : List Expr} (reversed : List Expr)
    (outer : List Level) : SpellsAll tokens items →
      Builder.run ⟨⟨reversed, 0⟩, outer⟩ tokens = some ⟨⟨items.reverse ++ reversed, 0⟩, outer⟩
  | .nil => rfl
  | @SpellsAll.cons _ _ item items head tail => by
      rw [Builder.run_append (head.run_eq ⟨reversed, 0⟩ outer), List.reverse_cons, List.append_assoc]
      exact tail.run_eq (item :: reversed) outer

end

/-- What a level holds so far: some expressions, and quote marks that wait. -/
def Level.Holds (level : Level) (tokens : List Token) : Prop :=
  ∃ done, SpellsAll done level.reversed.reverse ∧ tokens = done ++ List.replicate level.ticks .tick

/-- The levels around a list: each of them is interrupted by an opening parenthesis. -/
def Surround : List Level → List Token → Prop
  | [], tokens => tokens = []
  | level :: outer, tokens =>
    ∃ before here, tokens = before ++ here ++ [.opening] ∧ Surround outer before ∧ level.Holds here

/-- The tokens from which a builder came to be. -/
def Builder.Holds (builder : Builder) (tokens : List Token) : Prop :=
  ∃ before here, tokens = before ++ here ∧ Surround builder.outer before ∧ builder.current.Holds here

theorem Level.Holds.empty : Level.empty.Holds [] :=
  ⟨[], .nil, rfl⟩

/-- An expression goes behind the quote marks that wait. -/
theorem Level.Holds.add {level : Level} {tokens : List Token} (holds : level.Holds tokens)
    {spelled : List Token} {item : Expr} (spells : Spells spelled item) :
    (level.add item).Holds (tokens ++ spelled) := by
  obtain ⟨done, expressions, rfl⟩ := holds
  refine ⟨done ++ (List.replicate level.ticks .tick ++ spelled), ?_, by simp [Level.add]⟩
  rw [Level.add, List.reverse_cons]
  exact expressions.snoc (spells.ticks level.ticks)

theorem Level.Holds.tick {level : Level} {tokens : List Token} (holds : level.Holds tokens) :
    Level.Holds ⟨level.reversed, level.ticks + 1⟩ (tokens ++ [.tick]) := by
  obtain ⟨done, expressions, rfl⟩ := holds
  exact ⟨done, expressions, by rw [List.append_assoc, List.replicate_succ']⟩

theorem Level.Holds.items {level : Level} {tokens : List Token} (holds : level.Holds tokens)
    {items : List Expr} (finished : level.items? = some items) : SpellsAll tokens items := by
  obtain ⟨done, expressions, rfl⟩ := holds
  unfold Level.items? at finished
  split at finished
  · next none =>
      cases finished
      simpa [none] using expressions
  · cases finished

/-- One token more. -/
theorem Builder.Holds.advance {builder later : Builder} {tokens : List Token} {token : Token}
    (holds : builder.Holds tokens) (advanced : builder.advance? token = some later) :
    later.Holds (tokens ++ [token]) := by
  obtain ⟨before, here, rfl, around, current⟩ := holds
  cases token with
  | opening =>
      cases advanced
      exact ⟨before ++ here ++ [.opening], [], by simp, ⟨before, here, rfl, around, current⟩, .empty⟩
  | tick =>
      cases advanced
      exact ⟨before, here ++ [.tick], by simp, around, current.tick⟩
  | atom text =>
      cases advanced
      exact ⟨before, here ++ [.atom text], by simp, around, current.add (.atom text)⟩
  | closing =>
      unfold Builder.advance? at advanced
      cases levels : builder.outer with
      | nil =>
          rw [levels] at advanced
          cases advanced
      | cons parent outer =>
          rw [levels] at advanced around
          obtain ⟨items, finished, rfl⟩ := Option.map_eq_some_iff.mp advanced
          obtain ⟨further, inParent, rfl, aroundParent, held⟩ := around
          -- The list that is closed here is one expression of its parent.
          have closed := held.add (.list (current.items finished))
          exact ⟨further, _, by simp, aroundParent, closed⟩

theorem Builder.holds_run {tokens : List Token} :
    ∀ {builder : Builder}, Builder.start.run tokens = some builder → builder.Holds tokens := by
  induction tokens using List.reverseRecOn with
  | nil =>
      intro builder same
      cases same
      exact ⟨[], [], rfl, rfl, .empty⟩
  | append_singleton tokens token inductionHypothesis =>
      intro builder passed
      unfold Builder.run at passed
      rw [List.foldlM_append] at passed
      obtain ⟨before, begun, last⟩ := Option.bind_eq_some_iff.mp passed
      rw [List.foldlM_cons] at last
      obtain ⟨after, advanced, same⟩ := Option.bind_eq_some_iff.mp last
      cases same
      exact (inductionHypothesis begun).advance advanced

/-- The reader finds trees for exactly the rows of tokens that spell them. -/
theorem formsOfTokens?_eq_some_iff {tokens : List Token} {forms : List Expr} :
    formsOfTokens? tokens = some forms ↔ SpellsAll tokens forms := by
  constructor
  · intro found
    obtain ⟨builder, passed, finished⟩ := Option.bind_eq_some_iff.mp found
    obtain ⟨before, here, rfl, around, current⟩ := Builder.holds_run passed
    unfold Builder.forms? at finished
    split at finished
    · next closed =>
        rw [List.isEmpty_iff.mp closed] at around
        cases around
        exact current.items finished
    · cases finished
  · intro spelled
    have passed : Builder.start.run tokens = some ⟨⟨forms.reverse ++ [], 0⟩, []⟩ := spelled.run_eq [] []
    unfold formsOfTokens?
    unfold Builder.run at passed
    rw [passed]
    simp [Builder.forms?, Level.items?]

/-!
### Characters

The relations say what can be read at the beginning of a text and what is then left of it.
-/

/-- Blanks and comments, as many as there are. -/
inductive Gap : List Char → List Char → Prop where
  | done {text : List Char} (ends : ∀ c ∈ text.head?, isBlank c = false ∧ c ≠ ';') : Gap text text
  | blank {c : Char} {text rest : List Char} (blank : isBlank c = true) (gap : Gap text rest) :
      Gap (c :: text) rest
  | comment {body text rest : List Char} (line : ∀ c ∈ body, c ≠ '\n')
      (ends : ∀ c ∈ text.head?, c = '\n') (gap : Gap text rest) : Gap (';' :: (body ++ text)) rest

/-- A whole atom: what follows it does not belong to it. -/
structure Word (word rest : List Char) : Prop where
  some : word ≠ []
  whole : ∀ c ∈ word, isAtomChar c = true
  ends : ∀ c ∈ rest.head?, isAtomChar c = false

mutual

/-- One expression at the beginning of a text. -/
inductive Item : List Char → Expr → List Char → Prop where
  | quoted {text start rest : List Char} {body : Expr} (gap : Gap text start)
      (item : Item start body rest) : Item ('\x27' :: text) body.quote rest
  | list {text rest : List Char} {items : List Expr} (inside : Items text items (')' :: rest)) :
      Item ('(' :: text) (.list items) rest
  | number {word rest : List Char} {numeral : Numeral} (isWord : Word word rest)
      (shape : Numeral.parse? word = some numeral) : Item (word ++ rest) (.number numeral.value) rest
  | symbol {word rest : List Char} (isWord : Word word rest) (shape : Numeral.parse? word = none) :
      Item (word ++ rest) (.symbol (String.ofList word)) rest

/-- Expressions one after another, with gaps before, between and behind them. -/
inductive Items : List Char → List Expr → List Char → Prop where
  | nil {text rest : List Char} (gap : Gap text rest) : Items text [] rest
  | cons {text start middle rest : List Char} {item : Expr} {items : List Expr} (gap : Gap text start)
      (head : Item start item middle) (tail : Items middle items rest) : Items text (item :: items) rest

end

/-- A text that is a program, and its forms. -/
def Program (text : List Char) (forms : List Expr) : Prop :=
  Items text forms []

theorem item_word {word rest : List Char} (isWord : Word word rest) :
    Item (word ++ rest) (.ofAtom (String.ofList word)) rest := by
  unfold Expr.ofAtom
  rw [String.toList_ofList]
  cases shape : Numeral.parse? word with
  | none => exact .symbol isWord shape
  | some numeral => exact .number isWord shape

/-- A gap has no lexemes. -/
theorem Gap.lexed {text rest : List Char} (gap : Gap text rest) (offset : Nat) :
    ∃ later, ∀ lexemes, Lexed later rest lexemes → Lexed offset text lexemes := by
  induction gap generalizing offset with
  | done _ => exact ⟨offset, fun _ lexed => lexed⟩
  | @blank c text rest blank _ inductionHypothesis =>
      obtain ⟨later, lexed⟩ := inductionHypothesis (offset + c.utf8Size)
      exact ⟨later, fun lexemes behind => .blank blank (lexed lexemes behind)⟩
  | @comment body text rest line ends _ inductionHypothesis =>
      obtain ⟨later, lexed⟩ := inductionHypothesis (offset + byteLength (';' :: body))
      exact ⟨later, fun lexemes behind => .comment line ends (lexed lexemes behind)⟩

/-- The lexemes of a text begin with lexemes that have these tokens, and the others are those of the rest. -/
def Splits (offset : Nat) (text : List Char) (tokens : List Token) (rest : List Char) : Prop :=
  ∃ later spelled, spelled.map Lexeme.token = tokens ∧
    ∀ lexemes, Lexed later rest lexemes → Lexed offset text (spelled ++ lexemes)

theorem Gap.splits {text start rest : List Char} {tokens : List Token} (gap : Gap text start)
    (behind : ∀ later, Splits later start tokens rest) (offset : Nat) :
    Splits offset text tokens rest := by
  obtain ⟨middle, lexed⟩ := gap.lexed offset
  obtain ⟨later, spelled, same, rest⟩ := behind middle
  exact ⟨later, spelled, same, fun lexemes final => lexed _ (rest lexemes final)⟩

theorem Splits.mark {offset : Nat} {c : Char} {token : Token} {text rest : List Char}
    {tokens : List Token} (mark : Token.ofMark? c = some token)
    (behind : Splits (offset + c.utf8Size) text tokens rest) :
    Splits offset (c :: text) (token :: tokens) rest := by
  obtain ⟨later, spelled, same, lexed⟩ := behind
  exact ⟨later, ⟨token, offset⟩ :: spelled, by simp [same],
    fun lexemes final => .mark mark (lexed lexemes final)⟩

theorem Splits.append {offset : Nat} {text middle rest : List Char} {first second : List Token}
    (one : Splits offset text first middle) (two : ∀ later, Splits later middle second rest) :
    Splits offset text (first ++ second) rest := by
  obtain ⟨between, spelled, same, lexed⟩ := one
  obtain ⟨later, more, same', lexed'⟩ := two between
  refine ⟨later, spelled ++ more, by rw [List.map_append, same, same'], ?_⟩
  intro lexemes final
  rw [List.append_assoc]
  exact lexed _ (lexed' lexemes final)

theorem Word.splits {word rest : List Char} (isWord : Word word rest) (offset : Nat) :
    Splits offset (word ++ rest) [.atom (String.ofList word)] rest :=
  ⟨offset + byteLength word, [⟨.atom (String.ofList word), offset⟩], rfl,
    fun _ final => .atom isWord.some isWord.whole isWord.ends final⟩

theorem Splits.nil (offset : Nat) (text : List Char) : Splits offset text [] text :=
  ⟨offset, [], rfl, fun _ final => final⟩

mutual

/-- What is read as an expression has the lexemes of one. -/
theorem Item.spelled {text rest : List Char} {item : Expr} :
    Item text item rest → ∃ tokens, Spells tokens item ∧ ∀ offset, Splits offset text tokens rest
  | .quoted gap inner => by
      obtain ⟨tokens, spells, splits⟩ := inner.spelled
      exact ⟨_, .quoted spells, fun offset => .mark rfl (gap.splits splits _)⟩
  | .list inside => by
      obtain ⟨tokens, spells, splits⟩ := inside.spelled
      exact ⟨_, .list spells, fun offset => .mark rfl
        ((splits _).append fun later => .mark rfl (.nil _ _))⟩
  | @Item.number word rest numeral isWord shape => by
      have spells := Spells.atom (String.ofList word)
      rw [Expr.ofAtom, String.toList_ofList, shape] at spells
      exact ⟨_, spells, isWord.splits⟩
  | @Item.symbol word rest isWord shape => by
      have spells := Spells.atom (String.ofList word)
      rw [Expr.ofAtom, String.toList_ofList, shape] at spells
      exact ⟨_, spells, isWord.splits⟩

theorem Items.spelled {text rest : List Char} {items : List Expr} :
    Items text items rest → ∃ tokens, SpellsAll tokens items ∧ ∀ offset, Splits offset text tokens rest
  | .nil gap => ⟨[], .nil, gap.splits fun later => .nil later _⟩
  | .cons gap head tail => by
      obtain ⟨first, spells, splits⟩ := head.spelled
      obtain ⟨others, spellsOthers, splitsOthers⟩ := tail.spelled
      exact ⟨_, .cons spells spellsOthers, fun offset => (gap.splits splits offset).append splitsOthers⟩

end

/-- One token at the very beginning of a text. -/
inductive Takes : List Char → Token → List Char → Prop where
  | mark {c : Char} {token : Token} {rest : List Char} (mark : Token.ofMark? c = some token) :
      Takes (c :: rest) token rest
  | word {word rest : List Char} (isWord : Word word rest) :
      Takes (word ++ rest) (.atom (String.ofList word)) rest

/-- A text at a token or at its end, and its lexemes. -/
def Settled (text : List Char) (lexemes : List Lexeme) : Prop :=
  (text = [] ∧ lexemes = []) ∨ ∃ lexeme others rest later, lexemes = lexeme :: others ∧
    Takes text lexeme.token rest ∧ Lexed later rest others

theorem Takes.gap {text rest : List Char} {token : Token} (takes : Takes text token rest) :
    Gap text text := by
  apply Gap.done
  intro c member
  cases takes with
  | mark mark =>
      cases member
      refine ⟨?_, ne_semicolon_of_ofMark? mark⟩
      cases blank : isBlank c with
      | false => rfl
      | true => rw [ofMark?_of_isBlank blank] at mark; cases mark
  | @word word rest isWord =>
      cases word with
      | nil => exact absurd rfl isWord.some
      | cons first word =>
          cases member
          have letter := isWord.whole c List.mem_cons_self
          constructor
          · cases blank : isBlank c with
            | false => rfl
            | true => rw [isAtomChar_of_isBlank blank] at letter; cases letter
          · rintro rfl
            exact absurd letter (by decide)

/-- Behind a gap there is a token or the end. -/
theorem Lexed.settle {offset : Nat} {text : List Char} {lexemes : List Lexeme}
    (lexed : Lexed offset text lexemes) : ∃ start, Gap text start ∧ Settled start lexemes := by
  induction lexed with
  | done offset => exact ⟨[], .done (fun c member => nomatch member), Or.inl ⟨rfl, rfl⟩⟩
  | blank blank _ inductionHypothesis =>
      obtain ⟨start, gap, settled⟩ := inductionHypothesis
      exact ⟨start, .blank blank gap, settled⟩
  | comment line ends _ inductionHypothesis =>
      obtain ⟨start, gap, settled⟩ := inductionHypothesis
      exact ⟨start, .comment line ends gap, settled⟩
  | @mark offset c token text lexemes mark rest _ =>
      have takes : Takes (c :: text) token text := .mark mark
      exact ⟨_, takes.gap, Or.inr ⟨_, _, _, _, rfl, takes, rest⟩⟩
  | atom some whole ends rest _ =>
      have takes := Takes.word ⟨some, whole, ends⟩
      exact ⟨_, takes.gap, Or.inr ⟨_, _, _, _, rfl, takes, rest⟩⟩

/-- A settled text with a token to come begins with it. -/
theorem Settled.takes {text : List Char} {lexemes : List Lexeme} {token : Token} {tokens : List Token}
    (settled : Settled text lexemes) (same : lexemes.map Lexeme.token = token :: tokens) :
    ∃ rest later others, Takes text token rest ∧ Lexed later rest others ∧
      others.map Lexeme.token = tokens := by
  rcases settled with ⟨_, rfl⟩ | ⟨lexeme, others, rest, later, rfl, takes, lexed⟩
  · cases same
  · rw [List.map_cons] at same
    obtain ⟨rfl, behind⟩ := List.cons.inj same
    exact ⟨rest, later, others, takes, lexed, behind⟩

/-- The character of a mark. -/
theorem Takes.eq_cons {text rest : List Char} {token : Token} (takes : Takes text token rest) {c : Char}
    (own : Token.ofMark? c = some token) : text = c :: rest := by
  cases takes with
  | @mark other _ _ mark =>
      rcases ofMark?_cases own with ⟨rfl, rfl⟩ | ⟨rfl, rfl⟩ | ⟨rfl, rfl⟩ <;>
        rcases ofMark?_cases mark with ⟨rfl, same⟩ | ⟨rfl, same⟩ | ⟨rfl, same⟩ <;> cases same <;> rfl
  | word isWord => rcases ofMark?_cases own with ⟨_, same⟩ | ⟨_, same⟩ | ⟨_, same⟩ <;> cases same

theorem Takes.eq_word {text rest : List Char} {name : String} (takes : Takes text (.atom name) rest) :
    ∃ word, Word word rest ∧ name = String.ofList word ∧ text = word ++ rest := by
  cases takes with
  | mark mark => rcases ofMark?_cases mark with ⟨_, same⟩ | ⟨_, same⟩ | ⟨_, same⟩ <;> cases same
  | @word word _ isWord => exact ⟨word, isWord, rfl, rfl⟩

mutual

/-- Where the lexemes begin with the tokens of an expression, the text begins with the expression. -/
theorem Spells.item {tokens : List Token} {item : Expr} (spells : Spells tokens item) {offset : Nat}
    {text : List Char} {lexemes : List Lexeme} {more : List Token} (lexed : Lexed offset text lexemes)
    (same : lexemes.map Lexeme.token = tokens ++ more) :
    ∃ start rest later others, Gap text start ∧ Item start item rest ∧ Lexed later rest others ∧
      others.map Lexeme.token = more := by
  obtain ⟨start, gap, settled⟩ := lexed.settle
  cases spells with
  | atom name =>
      obtain ⟨rest, later, others, takes, behind, left⟩ := settled.takes same
      obtain ⟨word, isWord, rfl, rfl⟩ := takes.eq_word
      exact ⟨_, rest, later, others, gap, item_word isWord, behind, left⟩
  | quoted spells =>
      obtain ⟨rest, later, others, takes, behind, left⟩ := settled.takes same
      obtain rfl := takes.eq_cons (c := '\x27') rfl
      obtain ⟨inner, rest, later, others, between, item, behind, left⟩ := spells.item behind left
      exact ⟨_, rest, later, others, gap, .quoted between item, behind, left⟩
  | list spells =>
      rw [List.cons_append, List.append_assoc] at same
      obtain ⟨rest, later, others, takes, behind, left⟩ := settled.takes same
      obtain rfl := takes.eq_cons (c := '(') rfl
      obtain ⟨rest, others, inside, settledBehind, left⟩ := spells.items behind left
      obtain ⟨rest, later, others, takes, behind, left⟩ := settledBehind.takes left
      obtain rfl := takes.eq_cons (c := ')') rfl
      exact ⟨_, rest, later, others, gap, .list inside, behind, left⟩

theorem SpellsAll.items {tokens : List Token} {items : List Expr} (spells : SpellsAll tokens items)
    {offset : Nat} {text : List Char} {lexemes : List Lexeme} {more : List Token}
    (lexed : Lexed offset text lexemes) (same : lexemes.map Lexeme.token = tokens ++ more) :
    ∃ rest others, Items text items rest ∧ Settled rest others ∧ others.map Lexeme.token = more := by
  cases spells with
  | nil =>
      obtain ⟨start, gap, settled⟩ := lexed.settle
      exact ⟨start, lexemes, .nil gap, settled, same⟩
  | cons head tail =>
      rw [List.append_assoc] at same
      obtain ⟨start, middle, later, between, gap, item, behind, same⟩ := head.item lexed same
      obtain ⟨rest, others, items, settled, same⟩ := tail.items behind same
      exact ⟨rest, others, .cons gap item items, settled, same⟩

end

/-- A text is a program if its lexemes spell one. -/
theorem SpellsAll.program {text : List Char} {lexemes : List Lexeme} {forms : List Expr}
    (spells : SpellsAll (lexemes.map Lexeme.token) forms) {offset : Nat}
    (lexed : Lexed offset text lexemes) : Program text forms := by
  obtain ⟨rest, others, items, settled, same⟩ := spells.items lexed (List.append_nil _).symm
  rcases settled with ⟨ended, _⟩ | ⟨lexeme, more, _, _, present, _, _⟩
  · rwa [ended] at items
  · rw [present] at same
    cases same

/-- A program has lexemes that spell its forms, wherever its text starts. -/
theorem Program.lexed {text : List Char} {forms : List Expr} (program : Program text forms) :
    ∃ tokens, SpellsAll tokens forms ∧
      ∀ offset, ∃ lexemes, Lexed offset text lexemes ∧ lexemes.map Lexeme.token = tokens := by
  obtain ⟨tokens, spells, splits⟩ := Items.spelled program
  refine ⟨tokens, spells, ?_⟩
  intro offset
  obtain ⟨later, lexemes, same, lexed⟩ := splits offset
  have whole := lexed [] (.done later)
  rw [List.append_nil] at whole
  exact ⟨lexemes, whole, same⟩

/-- The reader accepts a text with some forms if and only if the grammar derives them. -/
theorem read_eq_ok_iff (source text : String) (forms : List Expr) :
    read source text = .ok forms ↔ Program text.toList forms := by
  have accepted : read source text = .ok forms ↔
      formsOfTokens? ((scan text).map Lexeme.token) = some forms := by
    simp only [read]
    cases formsOfTokens? ((scan text).map Lexeme.token) with
    | none => simp
    | some found => simp
  rw [accepted, formsOfTokens?_eq_some_iff]
  constructor
  · intro spells
    exact spells.program (lexed_scan text)
  · intro program
    obtain ⟨tokens, spells, lexed⟩ := program.lexed
    obtain ⟨lexemes, found, rfl⟩ := lexed 0
    rwa [(lexed_scan text).unique found]

end LexLisp
