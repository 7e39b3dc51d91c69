/-
Module: LexLisp.Proofs.Surface.Joining
Purpose: Programs put together from texts. A newline ends the comment or the atom under way and means nothing
  else, so the tokens of two texts with a newline between them are the tokens of the one and then those of the
  other. The same holds wherever a text is cut inside no atom and no comment. A text that is a program has no list
  and no quote mark open at its end, so its forms end there too.
Main exports: EndsInComment, Boundary, Lexed.append, Lexed.join, Program.join, read_intercalate
-/
import LexLisp.Proofs.Surface.Grammar
import Mathlib.Data.List.Forall2

namespace LexLisp

theorem byteLength_append (first second : List Char) :
    byteLength (first ++ second) = byteLength first + byteLength second := by
  induction first with
  | nil => exact (Nat.zero_add _).symm
  | cons c first inductionHypothesis =>
      rw [List.cons_append, byteLength, byteLength, inductionHypothesis, Nat.add_assoc]

/-!
### Where a text may be cut

A text may be cut anywhere but inside an atom or a comment. Its tokens are then those of the two parts. A comment
goes on to the end of its line, so the place before a newline and the end of the text are not inside it.
-/

/-- A comment is under way at the end of a text: there is a semicolon with no newline behind it. -/
def EndsInComment (text : List Char) : Prop :=
  ∃ before line, text = before ++ ';' :: line ∧ ∀ c ∈ line, c ≠ '\n'

/-- A place in a text, between what is before it and what is behind, that is inside no atom and no comment. -/
structure Boundary (text more : List Char) : Prop where
  atoms : ∀ c ∈ text.getLast?, isAtomChar c = true → ∀ d ∈ more.head?, isAtomChar d = false
  comments : EndsInComment text → ∀ d ∈ more.head?, d = '\n'

theorem EndsInComment.append {text : List Char} (ends : EndsInComment text) (before : List Char) :
    EndsInComment (before ++ text) := by
  obtain ⟨first, line, rfl, within⟩ := ends
  exact ⟨before ++ first, line, (List.append_assoc ..).symm, within⟩

theorem endsInComment_semicolon {body : List Char} (line : ∀ c ∈ body, c ≠ '\n') :
    EndsInComment (';' :: body) :=
  ⟨[], body, rfl, line⟩

/-- What is inside no atom and no comment of a text is inside none of a part of it. -/
theorem Boundary.of_append (first : List Char) {second more : List Char}
    (boundary : Boundary (first ++ second) more) : Boundary second more where
  atoms c last letter := boundary.atoms c (by rw [List.getLast?_append]; simp_all) letter
  comments ends := boundary.comments (ends.append first)

/-- The place before a newline is inside nothing. -/
theorem boundary_of_newline (text : List Char) {more : List Char} (ends : ∀ d ∈ more.head?, d = '\n') :
    Boundary text more where
  atoms _ _ _ d head := by
    rw [ends d head]
    rfl
  comments _ := ends

/-- The lexemes of a text that is not cut inside one of them are those of its parts. -/
theorem Lexed.append {offset : Nat} {text more : List Char} {lexemes others : List Lexeme}
    (first : Lexed offset text lexemes) (second : Lexed (offset + byteLength text) more others)
    (boundary : Boundary text more) : Lexed offset (text ++ more) (lexemes ++ others) := by
  induction first with
  | done offset => exact second
  | @blank offset c text lexemes blank _ inductionHypothesis =>
      rw [byteLength, ← Nat.add_assoc] at second
      exact .blank blank (inductionHypothesis second (boundary.of_append [c]))
  | @comment offset body text lexemes line ends _ inductionHypothesis =>
      rw [← List.cons_append] at boundary
      rw [List.cons_append, List.append_assoc]
      refine .comment line ?_ (inductionHypothesis ?_ (boundary.of_append _))
      · -- the comment ended at a newline, or at the end of the text, where it is not cut
        cases text with
        | nil => exact boundary.comments (by simpa using endsInComment_semicolon line)
        | cons c text => exact ends
      · rwa [← List.cons_append, byteLength_append, ← Nat.add_assoc] at second
  | @mark offset c token text lexemes mark _ inductionHypothesis =>
      rw [byteLength, ← Nat.add_assoc] at second
      exact .mark mark (inductionHypothesis second (boundary.of_append [c]))
  | @atom offset word text lexemes some whole ends _ inductionHypothesis =>
      rw [byteLength_append, ← Nat.add_assoc] at second
      rw [List.append_assoc]
      refine .atom some whole ?_ (inductionHypothesis second (boundary.of_append word))
      cases text with
      | nil =>
          rw [List.append_nil] at boundary
          have last := List.getLast?_eq_getLast_of_ne_nil some
          exact boundary.atoms _ last (whole _ (List.getLast_mem some))
      | cons c text => exact ends

/-- A newline keeps the lexemes before it and behind it apart. -/
theorem Lexed.join {offset : Nat} {text more : List Char} {lexemes others : List Lexeme}
    (first : Lexed offset text lexemes)
    (second : Lexed (offset + byteLength text + Char.utf8Size '\n') more others) :
    Lexed offset (text ++ '\n' :: more) (lexemes ++ others) :=
  first.append (.blank (by decide) second) (boundary_of_newline text (by simp))

/-- Two programs with a newline between them are one program, the forms of the one behind those of the other. -/
theorem Program.join {text more : List Char} {forms others : List Expr} (first : Program text forms)
    (second : Program more others) : Program (text ++ '\n' :: more) (forms ++ others) := by
  obtain ⟨tokens, spells, lexed⟩ := first.lexed
  obtain ⟨tokensBehind, spellsBehind, lexedBehind⟩ := second.lexed
  obtain ⟨lexemes, here, same⟩ := lexed 0
  obtain ⟨lexemesBehind, there, sameBehind⟩ := lexedBehind (0 + byteLength text + Char.utf8Size '\n')
  have together : SpellsAll ((lexemes ++ lexemesBehind).map Lexeme.token) (forms ++ others) := by
    rw [List.map_append, same, sameBehind]
    exact spells.append spellsBehind
  exact together.program (here.join there)

theorem program_nil : Program [] [] :=
  Items.nil (.done fun _ member => nomatch member)

/-- Programs joined by newlines are one program, with the forms of all of them in order. -/
theorem program_intercalate {texts : List (List Char)} {programs : List (List Expr)}
    (accepted : List.Forall₂ Program texts programs) :
    Program (['\n'].intercalate texts) programs.flatten := by
  induction accepted with
  | nil => exact program_nil
  | @cons text forms texts programs first others inductionHypothesis =>
      cases others with
      | nil => simpa using first
      | cons second third =>
          rw [List.intercalate_cons_cons, List.append_assoc]
          exact first.join inductionHypothesis

/-- Texts that are read one by one are read together, when newlines join them. -/
theorem read_intercalate (source : String) {inputs : List (String × String)}
    {programs : List (List Expr)}
    (accepted : List.Forall₂ (fun input forms => read input.1 input.2 = .ok forms) inputs programs) :
    read source ("\n".intercalate (inputs.map Prod.snd)) = .ok programs.flatten := by
  rw [read_eq_ok_iff, String.toList_intercalate]
  apply program_intercalate
  rw [List.map_map, List.forall₂_map_left_iff]
  exact accepted.imp fun input forms accepted => (read_eq_ok_iff _ _ _).mp accepted

end LexLisp
