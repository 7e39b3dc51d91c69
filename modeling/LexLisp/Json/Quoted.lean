/-
Module: LexLisp.Json.Quoted
Purpose: Strings in JSON. Writing escapes what the format forbids inside quotes and leaves all else as it
  is. Reading accepts every escape of the format; a character beyond the basic plane may be written as two
  escapes, one surrogate each, and a surrogate alone is no character.
Main exports: Json.escape, Json.quoted, Json.StringState, Json.readString
-/

namespace LexLisp.Json

/-- A hexadecimal digit in lower case. -/
def hexDigit (value : Nat) : Char :=
  Nat.digitChar value

/-- A character as it stands between the quotes. -/
def escape (c : Char) : List Char :=
  if c = '"' then ['\\', '"']
  else if c = '\\' then ['\\', '\\']
  else if c = '\x08' then ['\\', 'b']
  else if c = '\t' then ['\\', 't']
  else if c = '\n' then ['\\', 'n']
  else if c = '\x0c' then ['\\', 'f']
  else if c = '\r' then ['\\', 'r']
  else if c.toNat < 32 then ['\\', 'u', '0', '0', hexDigit (c.toNat / 16), hexDigit (c.toNat % 16)]
  else [c]

/-- A string with its quotes. -/
def quoted (text : String) : String :=
  String.ofList ('"' :: text.toList.flatMap escape ++ ['"'])

/-- What the reader of a string is in the middle of. -/
inductive StringState where
  | plain
  /-- Behind a backslash. With a high surrogate pending, only the other half of its pair may follow. -/
  | escape (high : Option Nat)
  /-- In the digits of a code unit: how many are missing, and the value of those read. -/
  | unit (missing : Nat) (value : Nat) (high : Option Nat)
  /-- Behind a high surrogate. -/
  | pending (high : Nat)
deriving Repr, Inhabited, DecidableEq

/-- The character that a backslash and a letter stand for. -/
def ofShortEscape? (c : Char) : Option Char :=
  if c = '"' ∨ c = '\\' ∨ c = '/' then some c
  else if c = 'b' then some '\x08'
  else if c = 't' then some '\t'
  else if c = 'n' then some '\n'
  else if c = 'f' then some '\x0c'
  else if c = 'r' then some '\r'
  else none

/-- The value of a hexadecimal digit of either case. -/
def hexValue? (c : Char) : Option Nat :=
  if c.isDigit then some (c.toNat - '0'.toNat)
  else if 'a' ≤ c ∧ c ≤ 'f' then some (c.toNat - 'a'.toNat + 10)
  else if 'A' ≤ c ∧ c ≤ 'F' then some (c.toNat - 'A'.toNat + 10)
  else none

/-- The first half of a pair. -/
def isHighSurrogate (value : Nat) : Bool :=
  0xD800 ≤ value && value ≤ 0xDBFF

/-- The second half of a pair. -/
def isLowSurrogate (value : Nat) : Bool :=
  0xDC00 ≤ value && value ≤ 0xDFFF

/-- After a whole code unit: a pending high surrogate needs a low one, which completes a character; any
    other unit is a character by itself or the first half of a pair. -/
def afterUnit? (value : Nat) : Option Nat → Option (StringState × List Char)
  | some high =>
    if isLowSurrogate value then
      some (.plain, [Char.ofNat (0x10000 + (high - 0xD800) * 0x400 + (value - 0xDC00))])
    else none
  | none =>
    if isHighSurrogate value then some (.pending value, [])
    else if isLowSurrogate value then none
    else some (.plain, [Char.ofNat value])

/-- The state after one more character that does not end the string, and the characters it completes. -/
def StringState.advance? : StringState → Char → Option (StringState × List Char)
  | .plain, c =>
    if c = '\\' then some (.escape none, [])
    else if c.toNat < 32 then none
    else some (.plain, [c])
  | .escape high, c =>
    if c = 'u' then some (.unit 4 0 high, [])
    else
      match high with
      | some _ => none
      | none => (ofShortEscape? c).map fun plain => (.plain, [plain])
  | .unit missing value high, c =>
    (hexValue? c).bind fun digit =>
      if missing ≤ 1 then afterUnit? (16 * value + digit) high
      else some (.unit (missing - 1) (16 * value + digit) high, [])
  | .pending high, c => if c = '\\' then some (.escape (some high), []) else none

/-- The rest of a string, up to its closing quote, and the text behind it. The characters read so far come
    last first. -/
def readString (state : StringState) (reversed : List Char) : List Char → Option (String × List Char)
  | [] => none
  | c :: rest =>
    if state = .plain ∧ c = '"' then some (String.ofList reversed.reverse, rest)
    else
      match state.advance? c with
      | none => none
      | some (next, completed) => readString next (completed ++ reversed) rest

end LexLisp.Json
