/-
Module: LexLisp.Surface.ReadError
Purpose: Why a text was not read. A cause carries the place it points at, in bytes; its words, its extent
  and its advice are functions of the cause.
Main exports: ReadFault, ReadFault.message, ReadFault.extent, ReadFault.help, ReadError
-/

namespace LexLisp

/-- The causes for which a text is rejected. -/
inductive ReadFault where
  /-- A closing parenthesis that closes nothing. -/
  | strayClosing (offset : Nat)
  /-- An opening parenthesis that is never closed. -/
  | unclosedList (offset : Nat)
  /-- A quote mark with no expression behind it; the offset is where that expression should start. -/
  | danglingTick (offset : Nat)
  /-- No expression where exactly one is wanted. -/
  | noExpression
  /-- More expressions than the one that is wanted, in a text of so many bytes. -/
  | severalExpressions (count : Nat) (length : Nat)
deriving Repr, Inhabited, DecidableEq

namespace ReadFault

/-- The words of a fault. -/
def message : ReadFault → String
  | .strayClosing _ => "unexpected ')'"
  | .unclosedList _ => "unclosed list"
  | .danglingTick _ => "expected quoted, list, number, or symbol"
  | .noExpression => "expected an expression"
  | .severalExpressions count _ => "expected one expression, found " ++ toString count

/-- The byte offset and the byte length of what the fault is about. -/
def extent : ReadFault → Nat × Nat
  | .strayClosing offset => (offset, 1)
  | .unclosedList offset => (offset, 1)
  | .danglingTick offset => (offset, 0)
  | .noExpression => (0, 0)
  | .severalExpressions _ length => (0, length)

/-- How to mend the text, where there is one way. -/
def help : ReadFault → Option String
  | .strayClosing _ => some "remove the extra ')'"
  | .unclosedList _ => some "add the missing ')'"
  | .danglingTick _ => none
  | .noExpression => none
  | .severalExpressions _ _ => some "wrap several expressions in (begin ...)"

end ReadFault

/-- A rejected text: the name it goes by and the cause. -/
structure ReadError where
  source : String
  fault : ReadFault
deriving Repr, Inhabited, DecidableEq

end LexLisp
