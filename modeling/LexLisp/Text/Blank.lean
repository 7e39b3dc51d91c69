/-
Module: LexLisp.Text.Blank
Purpose: Whitespace of a line of input. It is the Unicode property of that name, which is wider than the four
  characters that separate tokens.
Main exports: isWhitespace, trimmed, isBlankText
-/

namespace LexLisp

/-- The characters with the Unicode property White_Space. -/
def isWhitespace (c : Char) : Bool :=
  let code := c.toNat
  (0x09 ≤ code && code ≤ 0x0D) || code == 0x20 || code == 0x85 || code == 0xA0 || code == 0x1680 ||
    (0x2000 ≤ code && code ≤ 0x200A) || code == 0x2028 || code == 0x2029 || code == 0x202F ||
    code == 0x205F || code == 0x3000

/-- A text without the whitespace at its two ends. -/
def trimmed (text : String) : String :=
  String.ofList ((text.toList.dropWhile isWhitespace).reverse.dropWhile isWhitespace).reverse

/-- Whether a text is whitespace throughout. -/
def isBlankText (text : String) : Bool :=
  text.toList.all isWhitespace

end LexLisp
