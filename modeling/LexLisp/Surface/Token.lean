/-
Module: LexLisp.Surface.Token
Purpose: Tokens of the surface syntax, with the byte offsets at which they start. A text is scanned by one
  pass over its characters; the scanner's whole memory is a value, so the tokens of a text that is put
  together from pieces follow from the state between the pieces.
Main exports: isBlank, isAtomChar, Token, Lexeme, Scanner, scan
-/

namespace LexLisp

/-- The characters that separate tokens and mean nothing else. -/
def isBlank (c : Char) : Bool :=
  c == ' ' || c == '\t' || c == '\r' || c == '\n'

/-- The characters that an atom is made of: all but blanks, parentheses, the quote mark and the semicolon
    that starts a comment. -/
def isAtomChar (c : Char) : Bool :=
  !(isBlank c || c == '(' || c == ')' || c == '\x27' || c == ';')

/-- A token of the surface syntax. -/
inductive Token where
  | opening
  | closing
  /-- The quote mark. -/
  | tick
  | atom (text : String)
deriving Repr, Inhabited, DecidableEq

/-- A token and the byte offset at which it starts. -/
structure Lexeme where
  token : Token
  start : Nat
deriving Repr, Inhabited, DecidableEq

/-- The token that a character is by itself. -/
def Token.ofMark? (c : Char) : Option Token :=
  if c = '(' then some .opening
  else if c = ')' then some .closing
  else if c = '\x27' then some .tick
  else none

/-- What the scanner is in the middle of. -/
inductive ScanMode where
  | between
  | comment
  /-- An atom that started at a byte offset, with its characters so far, last first. -/
  | inAtom (start : Nat) (reversed : List Char)
deriving Repr, Inhabited, DecidableEq

/-- The state of a scan: its mode, the byte offset of the next character, and the finished lexemes, last
    first. -/
structure Scanner where
  mode : ScanMode
  offset : Nat
  reversed : List Lexeme
deriving Repr, Inhabited, DecidableEq

namespace Scanner

/-- The scan of nothing yet. -/
def start : Scanner := ⟨.between, 0, []⟩

/-- The lexemes when the text ends here, last first: an atom under way is finished. -/
def closed (scanner : Scanner) : List Lexeme :=
  match scanner.mode with
  | .inAtom start reversed => ⟨.atom (String.ofList reversed.reverse), start⟩ :: scanner.reversed
  | _ => scanner.reversed

/-- The mode after a character that no atom holds. -/
def modeAfterBreak (c : Char) : ScanMode :=
  if c = ';' then .comment else .between

/-- The lexemes after a character that no atom holds: it ends the atom under way, and may be a token. -/
def lexemesAfterBreak (scanner : Scanner) (c : Char) : List Lexeme :=
  match Token.ofMark? c with
  | some token => ⟨token, scanner.offset⟩ :: scanner.closed
  | none => scanner.closed

/-- The state after one more character. Inside a comment only a newline matters. Elsewhere a character
    extends the atom under way or starts one, or it ends that atom and is a token, a blank or the start of
    a comment. -/
def advance (scanner : Scanner) (c : Char) : Scanner :=
  let offset := scanner.offset + c.utf8Size
  match scanner.mode with
  | .comment => ⟨if c = '\n' then .between else .comment, offset, scanner.reversed⟩
  | .inAtom start reversed =>
    if isAtomChar c then ⟨.inAtom start (c :: reversed), offset, scanner.reversed⟩
    else ⟨modeAfterBreak c, offset, scanner.lexemesAfterBreak c⟩
  | .between =>
    if isAtomChar c then ⟨.inAtom scanner.offset [c], offset, scanner.reversed⟩
    else ⟨modeAfterBreak c, offset, scanner.lexemesAfterBreak c⟩

/-- The state after more characters. -/
def run (scanner : Scanner) (characters : List Char) : Scanner :=
  characters.foldl advance scanner

/-- A text in two pieces is scanned piece by piece. -/
theorem run_append (scanner : Scanner) (first second : List Char) :
    scanner.run (first ++ second) = (scanner.run first).run second :=
  List.foldl_append

end Scanner

/-- The lexemes of a text, in order. -/
def scan (text : String) : List Lexeme :=
  (Scanner.start.run text.toList).closed.reverse

end LexLisp
