/-
Module: LexLisp.Proofs.Surface.Printing
Purpose: Printed programs are read back. The text of a tree is one expression of the grammar: its atoms are words
  that stay of their kind, and a blank or a parenthesis follows each of them, so that none runs into the next. It
  is read as the same tree, but for the numbers: both zeros come back as zero, and an infinity as the symbol that
  is its text. What is read prints as before.
Main exports: Expr.reread, Expr.Legible, Items.legible, item_text, program_text, read_canonical
-/
import LexLisp.CommandLine
import LexLisp.Proofs.Decimal.Display
import LexLisp.Proofs.Surface.Joining

namespace LexLisp

/-!
### Trees that can be printed
-/

namespace Expr

mutual

/-- The numeric literals of a tree. -/
def numbers : Expr → List Float
  | .number value => [value]
  | .symbol _ => []
  | .list items => numbersAmong items

/-- The numeric literals of trees. -/
def numbersAmong : List Expr → List Float
  | [] => []
  | item :: items => numbers item ++ numbersAmong items

end

mutual

/-- A tree whose symbols are words and no numerals, and whose numbers are numbers. -/
def Legible : Expr → Prop
  | .number value => Binary64.ofFloat value ≠ .nan
  | .symbol name => Word name.toList [] ∧ Numeral.parse? name.toList = none
  | .list items => LegibleAll items

/-- Trees of that kind. -/
def LegibleAll : List Expr → Prop
  | [] => True
  | item :: items => Legible item ∧ LegibleAll items

end

mutual

/-- What the text of a tree is read as. -/
def reread : Expr → Expr
  | .number value => .ofAtom (displayNumber value)
  | .symbol name => .symbol name
  | .list items => .list (rereadAll items)

/-- What the texts of trees are read as. -/
def rereadAll : List Expr → List Expr
  | [] => []
  | item :: items => reread item :: rereadAll items

end

theorem texts_eq_map (items : List Expr) : texts items = items.map text := by
  induction items with
  | nil => rfl
  | cons item items inductionHypothesis => rw [texts, inductionHypothesis, List.map_cons]

theorem length_rereadAll (items : List Expr) : (rereadAll items).length = items.length := by
  induction items with
  | nil => rfl
  | cons item items inductionHypothesis =>
      rw [rereadAll, List.length_cons, List.length_cons, inductionHypothesis]

mutual

/-- What is read prints as before. -/
theorem text_reread : ∀ form : Expr, form.reread.text = form.text
  | .number value => by rw [reread, text_ofAtom_displayNumber, text]
  | .symbol name => by rw [reread]
  | .list items => by rw [reread, text, text, texts_rereadAll items]

theorem texts_rereadAll : ∀ items : List Expr, texts (rereadAll items) = texts items
  | [] => by rw [rereadAll]
  | item :: items => by rw [rereadAll, texts, texts, text_reread item, texts_rereadAll items]

end

mutual

/-- What is read equals what was printed, if no number is infinite. -/
theorem alike_reread : ∀ form : Expr, form.Legible → (∀ number ∈ form.numbers, number.isInf = false) →
    form.alike form.reread = true
  | .number value, legible, finite =>
      alike_ofAtom_displayNumber legible (finite value List.mem_cons_self)
  | .symbol name, _, _ => by rw [reread, alike, beq_self_eq_true]
  | .list items, legible, finite => by
      rw [reread, alike]
      exact alikeItems_rereadAll items legible finite

theorem alikeItems_rereadAll : ∀ items : List Expr, LegibleAll items →
    (∀ number ∈ numbersAmong items, number.isInf = false) → alikeItems items (rereadAll items) = true
  | [], _, _ => by rw [rereadAll, alikeItems]
  | item :: items, legible, finite => by
      rw [rereadAll, alikeItems, Bool.and_eq_true]
      exact ⟨alike_reread item legible.1 fun number member => finite number (List.mem_append_left _ member),
        alikeItems_rereadAll items legible.2 fun number member =>
          finite number (List.mem_append_right _ member)⟩

end

end Expr

/-!
### What is read can be printed
-/

/-- A word is one before anything that ends it. -/
theorem Word.before {word rest : List Char} (isWord : Word word [])
    (ends : ∀ c ∈ rest.head?, isAtomChar c = false) : Word word rest :=
  ⟨isWord.some, isWord.whole, ends⟩

theorem Word.alone {word rest : List Char} (isWord : Word word rest) : Word word [] :=
  ⟨isWord.some, isWord.whole, fun _ member => nomatch member⟩

/-- Whether a text is a word can be tested. -/
theorem word_of_all {text : String} (some : text.toList.isEmpty = false)
    (whole : text.toList.all isAtomChar = true) : Word text.toList [] :=
  ⟨List.isEmpty_eq_false_iff.mp some, List.all_eq_true.mp whole, fun _ member => nomatch member⟩

theorem legible_quote : (Expr.symbol "quote").Legible :=
  ⟨word_of_all rfl rfl, rfl⟩

mutual

/-- What is read has words for symbols, the quote mark's symbol among them, and no number that is none. -/
theorem Item.legible {text rest : List Char} {item : Expr} : Item text item rest → item.Legible
  | .quoted _ inner => ⟨legible_quote, inner.legible, trivial⟩
  | .list inside => inside.legible
  | @Item.number _ _ numeral _ _ => numeral.ofFloat_value_ne_nan
  | .symbol isWord shape => by
      rw [Expr.Legible, String.toList_ofList]
      exact ⟨isWord.alone, shape⟩

theorem Items.legible {text rest : List Char} {items : List Expr} :
    Items text items rest → Expr.LegibleAll items
  | .nil _ => trivial
  | .cons _ head tail => ⟨head.legible, tail.legible⟩

end

/-!
### What is printed can be read
-/

theorem isAtomChar_of_isDigit {c : Char} (digit : c.isDigit = true) : isAtomChar c = true := by
  cases letter : isAtomChar c with
  | true => rfl
  | false =>
      simp only [isAtomChar, isBlank, Bool.not_eq_false', Bool.or_eq_true, beq_iff_eq] at letter
      rcases letter with ((((((rfl | rfl) | rfl) | rfl) | rfl) | rfl) | rfl) | rfl <;> cases digit

theorem word_characters {numeral : Numeral} (wellFormed : numeral.WellFormed) :
    Word numeral.characters [] := by
  refine ⟨?_, ?_, fun _ member => nomatch member⟩
  · have some := wellFormed.some
    simp [Numeral.characters, some]
  · intro c member
    rw [Numeral.characters, List.mem_append, List.mem_append] at member
    rcases member with sign | inWhole | inFraction
    · split at sign
      · cases List.mem_singleton.mp sign
        rfl
      · cases sign
    · exact isAtomChar_of_isDigit (wellFormed.whole c inWhole)
    · split at inFraction
      · cases inFraction
      · rcases List.mem_cons.mp inFraction with rfl | digit
        · rfl
        · exact isAtomChar_of_isDigit (wellFormed.fraction c digit)

/-- Numbers are displayed as words. -/
theorem word_displayNumber (number : Float) : Word (displayNumber number).toList [] := by
  have shown := shown_displayNumber number
  generalize displayNumber number = text at shown
  cases shown with
  | special named _ =>
      simp only [List.mem_cons, List.not_mem_nil, or_false] at named
      rcases named with rfl | rfl | rfl <;> exact word_of_all rfl rfl
  | zero _ => exact word_of_all rfl rfl
  | numeral wellFormed _ =>
      rw [String.toList_ofList]
      exact word_characters wellFormed

/-- An expression starts at its first character. -/
theorem Item.gap {text rest : List Char} {item : Expr} (read : Item text item rest) : Gap text text := by
  cases read with
  | quoted _ _ => exact (Takes.mark rfl).gap
  | list _ => exact (Takes.mark rfl).gap
  | number isWord _ => exact (Takes.word isWord).gap
  | symbol isWord _ => exact (Takes.word isWord).gap

/-- A blank before expressions belongs to the gap before the first of them, or to the one behind them. -/
theorem Items.blank {text rest : List Char} {items : List Expr} {c : Char} (blank : isBlank c = true)
    (read : Items text items rest) : Items (c :: text) items rest := by
  cases read with
  | nil gap => exact .nil (.blank blank gap)
  | cons gap head tail => exact .cons (.blank blank gap) head tail

theorem toList_parenthesized (words : List String) :
    (parenthesized words).toList = '(' :: ((spaced words).toList ++ [')']) := by
  simp [parenthesized]

theorem toList_spaced_cons (word next : String) (rest : List String) :
    (spaced (word :: next :: rest)).toList = word.toList ++ ' ' :: (spaced (next :: rest)).toList := by
  simp [spaced]

mutual

/-- The text of a tree is one expression, before anything that ends a word. -/
theorem item_text (rest : List Char) (ends : ∀ c ∈ rest.head?, isAtomChar c = false) :
    ∀ form : Expr, form.Legible → Item (form.text.toList ++ rest) form.reread rest
  | .number value, _ => by
      have read := item_word ((word_displayNumber value).before ends)
      rwa [String.ofList_toList] at read
  | .symbol name, legible => by
      obtain ⟨isWord, shape⟩ := legible
      have read := Item.symbol (isWord.before ends) shape
      rwa [String.ofList_toList] at read
  | .list items, legible => by
      rw [Expr.text, toList_parenthesized, List.cons_append, List.append_assoc, Expr.reread]
      exact .list (items_spaced rest items legible)

/-- The texts of trees with blanks between them are the inside of a list. -/
theorem items_spaced (rest : List Char) : ∀ items : List Expr, Expr.LegibleAll items →
    Items ((spaced (Expr.texts items)).toList ++ ')' :: rest) (Expr.rereadAll items) (')' :: rest)
  | [], _ => .nil (Takes.mark rfl).gap
  | [item], legible => by
      have head := item_text (')' :: rest) (fun _ member => Option.some.inj member ▸ rfl) item legible.1
      exact .cons head.gap head (.nil (Takes.mark rfl).gap)
  | item :: next :: items, legible => by
      -- the blank ends the first text, and is the gap before the second
      have tail := items_spaced rest (next :: items) legible.2
      have head := item_text (' ' :: ((spaced (Expr.texts (next :: items))).toList ++ ')' :: rest))
        (fun _ member => Option.some.inj member ▸ rfl) item legible.1
      rw [Expr.texts, Expr.texts, toList_spaced_cons, List.append_assoc, List.cons_append]
      exact .cons head.gap head (tail.blank rfl)

end

theorem program_text {form : Expr} (legible : form.Legible) : Program form.text.toList [form.reread] := by
  have item := item_text [] (fun _ member => nomatch member) form legible
  rw [List.append_nil] at item
  exact Items.cons item.gap item program_nil

theorem forall₂_program_text {items : List Expr} (legible : Expr.LegibleAll items) :
    List.Forall₂ Program (items.map fun item => item.text.toList) ((Expr.rereadAll items).map ([·])) := by
  induction items with
  | nil => exact .nil
  | cons item items inductionHypothesis =>
      exact .cons (program_text legible.1) (inductionHypothesis legible.2)

/-- Trees on lines of their own, with a newline between two of them. -/
theorem program_texts {items : List Expr} (legible : Expr.LegibleAll items) :
    Program (['\n'].intercalate (items.map fun item => item.text.toList)) (Expr.rereadAll items) := by
  have joined := program_intercalate (forall₂_program_text legible)
  rwa [← List.flatMap_def, List.flatMap_singleton'] at joined

/-- Trees on lines of their own, with a newline behind each of them. -/
theorem program_lines : ∀ {items : List Expr}, Expr.LegibleAll items →
    Program (items.flatMap fun item => item.text.toList ++ ['\n']) (Expr.rereadAll items)
  | [], _ => program_nil
  | _ :: items, legible => by
      rw [List.flatMap_cons, List.append_assoc, List.singleton_append]
      exact (program_text legible.1).join (program_lines legible.2)

/-- Trees on lines of their own, as they are printed. -/
def linesOf (forms : List Expr) : String :=
  String.join ((forms.map Expr.text).map fun line => line ++ "\n")

theorem formLines_eq {source text : String} {forms : List Expr} (accepted : read source text = .ok forms) :
    formLines source text false = .ok (linesOf forms) := by
  rw [formLines, accepted, linesOf, List.map_map]
  rfl

theorem toList_linesOf (forms : List Expr) :
    (linesOf forms).toList = forms.flatMap fun form => form.text.toList ++ ['\n'] := by
  rw [linesOf, String.toList_join, List.map_map, List.flatMap_map]
  simp

/-- The canonical text of a program, its forms printed with newlines between them, is read: as many forms, which
    print as that text again. They equal the forms of the program, if no literal of it is infinite. The same
    forms are read from the lines that are printed for the program, and these lines are printed for themselves. -/
theorem read_canonical {source text : String} {forms : List Expr} (accepted : read source text = .ok forms)
    (other : String) :
    ∃ again, read other ("\n".intercalate (forms.map Expr.text)) = .ok again ∧
      again.length = forms.length ∧
      "\n".intercalate (again.map Expr.text) = "\n".intercalate (forms.map Expr.text) ∧
      ((∀ number ∈ Expr.numbersAmong forms, number.isInf = false) →
        Expr.alikeItems forms again = true) ∧
      ∃ printed, formLines source text false = .ok printed ∧ read other printed = .ok again ∧
        formLines other printed false = .ok printed := by
  have legible : Expr.LegibleAll forms := ((read_eq_ok_iff _ _ _).mp accepted).legible
  have texts : (Expr.rereadAll forms).map Expr.text = forms.map Expr.text := by
    rw [← Expr.texts_eq_map, ← Expr.texts_eq_map, Expr.texts_rereadAll]
  have lines : read other (linesOf forms) = .ok (Expr.rereadAll forms) := by
    rw [read_eq_ok_iff, toList_linesOf]
    exact program_lines legible
  refine ⟨Expr.rereadAll forms, ?_, Expr.length_rereadAll forms, by rw [texts],
    Expr.alikeItems_rereadAll forms legible, linesOf forms, formLines_eq accepted, lines, ?_⟩
  · rw [read_eq_ok_iff, String.toList_intercalate, List.map_map]
    exact program_texts legible
  · rw [formLines_eq lines, linesOf, linesOf, texts]

/-- A quoted list, a comment and a symbol that begins like a number; minus zero comes back as zero. -/
theorem read_canonical_quoted :
    let forms : List Expr := [.quote (.list [.number (Numeral.value ⟨true, ['0'], []⟩),
      .number (Numeral.value ⟨false, ['2'], ['5', '0']⟩)]), .symbol "1+"]
    read "a" "\x27(-0 2.50) ; pair\n1+" = .ok forms ∧
      ∃ again, read "b" "(quote (0 2.5))\n1+" = .ok again ∧ Expr.alikeItems forms again = true := by
  intro forms
  have scanned : scan "\x27(-0 2.50) ; pair\n1+" = [⟨.tick, 0⟩, ⟨.opening, 1⟩, ⟨.atom "-0", 2⟩,
      ⟨.atom "2.50", 5⟩, ⟨.closing, 9⟩, ⟨.atom "1+", 18⟩] := by cbv
  have accepted : read "a" "\x27(-0 2.50) ; pair\n1+" = .ok forms := by
    rw [read, scanned]
    rfl
  have canonical : "\n".intercalate (forms.map Expr.text) = "(quote (0 2.5))\n1+" := by decide
  have finite : ∀ number ∈ Expr.numbersAmong forms, number.isInf = false := by decide
  obtain ⟨again, isRead, _, _, alike, _⟩ := read_canonical accepted "b"
  rw [canonical] at isRead
  exact ⟨accepted, again, isRead, alike finite⟩

end LexLisp
