/-
Module: LexLisp.Surface.Reader
Purpose: From tokens to trees. One pass keeps the lists that are still open, each with the elements read so
  far and the quote marks that wait for the next element. Only when that pass fails is the reason looked
  for: unbalanced parentheses come first, wherever they stand, and a quote mark without an expression
  second.
Main exports: Builder, formsOfTokens?, diagnose, read, readOne
-/
import LexLisp.Surface.Numeral
import LexLisp.Surface.ReadError
import LexLisp.Surface.Token

namespace LexLisp

/-- A list under construction: its elements so far, last first, and how many quote marks stand before the
    next one. -/
structure Level where
  reversed : List Expr
  ticks : Nat
deriving Repr, Inhabited

namespace Level

/-- A list with nothing in it. -/
def empty : Level := ⟨[], 0⟩

/-- An expression behind so many quote marks. -/
def quoted : Nat → Expr → Expr
  | 0, body => body
  | ticks + 1, body => quoted ticks body.quote

/-- The next element, which takes the waiting quote marks. -/
def add (level : Level) (item : Expr) : Level :=
  ⟨quoted level.ticks item :: level.reversed, 0⟩

/-- The elements, unless a quote mark still waits. -/
def items? (level : Level) : Option (List Expr) :=
  if level.ticks = 0 then some level.reversed.reverse else none

end Level

/-- The innermost open list and the lists around it, nearest first. The outermost is the program. -/
structure Builder where
  current : Level
  outer : List Level
deriving Repr, Inhabited

namespace Builder

/-- Before the first token. -/
def start : Builder := ⟨.empty, []⟩

/-- The state after one more token, unless the token cannot stand there. -/
def advance? (builder : Builder) : Token → Option Builder
  | .opening => some ⟨.empty, builder.current :: builder.outer⟩
  | .closing =>
    match builder.outer with
    | [] => none
    | parent :: outer => builder.current.items?.map fun items => ⟨parent.add (.list items), outer⟩
  | .tick => some ⟨⟨builder.current.reversed, builder.current.ticks + 1⟩, builder.outer⟩
  | .atom text => some ⟨builder.current.add (Expr.ofAtom text), builder.outer⟩

/-- The forms of the program, if every list is closed. -/
def forms? (builder : Builder) : Option (List Expr) :=
  if builder.outer.isEmpty then builder.current.items? else none

end Builder

/-- The trees that a row of tokens spells. -/
def formsOfTokens? (tokens : List Token) : Option (List Expr) :=
  (tokens.foldlM Builder.advance? Builder.start).bind Builder.forms?

/-- The offsets of the open parentheses after one more lexeme, innermost first, or the offset of a closing
    parenthesis that closes nothing. -/
def matchParenthesis (opened : List Nat) (lexeme : Lexeme) : Except Nat (List Nat) :=
  match lexeme.token with
  | .opening => .ok (lexeme.start :: opened)
  | .closing =>
    match opened with
    | [] => .error lexeme.start
    | _ :: outer => .ok outer
  | _ => .ok opened

/-- The first closing parenthesis that closes nothing, or else the last opening one that is not closed. -/
def unbalanced? (lexemes : List Lexeme) : Option ReadFault :=
  match lexemes.foldlM matchParenthesis [] with
  | .error offset => some (.strayClosing offset)
  | .ok (offset :: _) => some (.unclosedList offset)
  | .ok [] => none

/-- Where the first quote mark with nothing to quote expects its expression: at the closing parenthesis
    behind it, or at the end of the text. -/
def danglingOffset (textEnd : Nat) : List Lexeme → Nat
  | [] => textEnd
  | lexeme :: rest =>
    match lexeme.token, rest with
    | .tick, [] => textEnd
    | .tick, next :: _ => if next.token = .closing then next.start else danglingOffset textEnd rest
    | _, _ => danglingOffset textEnd rest

/-- Why a text of so many bytes with these lexemes is no program. -/
def diagnose (textEnd : Nat) (lexemes : List Lexeme) : ReadFault :=
  (unbalanced? lexemes).getD (.danglingTick (danglingOffset textEnd lexemes))

/-- The forms of a text that goes by the name `source`. -/
def read (source text : String) : Except ReadError (List Expr) :=
  let lexemes := scan text
  match formsOfTokens? (lexemes.map Lexeme.token) with
  | some forms => .ok forms
  | none => .error ⟨source, diagnose text.utf8ByteSize lexemes⟩

/-- The name that a text goes by where it must hold exactly one expression. -/
def singleSource : String := "<expr>"

/-- The expression of a text that must hold exactly one. -/
def readOne (text : String) : Except ReadError Expr := do
  match ← read singleSource text with
  | [form] => .ok form
  | [] => .error ⟨singleSource, .noExpression⟩
  | forms => .error ⟨singleSource, .severalExpressions forms.length text.utf8ByteSize⟩

end LexLisp
