/-
Module: LexLisp.Text.Words
Purpose: Words in a line, one space between two of them. Every list of this library is printed through
  this one function, so that trees and values share their layout.
Main exports: spaced, parenthesized
-/

namespace LexLisp

/-- The words with a single space between two neighbours. -/
def spaced : List String → String
  | [] => ""
  | [word] => word
  | word :: next :: rest => word ++ " " ++ spaced (next :: rest)

/-- The words of a list between its parentheses. -/
def parenthesized (words : List String) : String :=
  "(" ++ spaced words ++ ")"

end LexLisp
