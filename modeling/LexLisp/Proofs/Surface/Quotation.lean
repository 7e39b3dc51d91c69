/-
Module: LexLisp.Proofs.Surface.Quotation
Purpose: Data survives printing, reading and quotation. Every tree prints as the value that it stands for once it is
  quoted. Conversely, data whose numbers are finite and whose symbols are words stands for a tree that is read back
  from its text; to quote what was read gives the data again, but for the sign of a zero, and does nothing else.
Main exports: Value.text_ofDatum, Value.Readable, Value.Readable.exists_tree, quoted_data_survives
-/
import LexLisp.Proofs.Equality
import LexLisp.Proofs.Surface.Layout
import LexLisp.Proofs.Surface.Printing

namespace LexLisp

/-!
### Finite numbers
-/

theorem isInf_of_isFinite {number : Float} (finite : number.isFinite = true) : number.isInf = false := by
  rw [Float.isFinite, Float.Model.isFinite] at finite
  rw [Float.isInf, Float.Model.isInf]
  cases unpacked : number.toModel.unpack with
  | infinity sign =>
      rw [unpacked] at finite
      cases finite
  | notANumber | zero | finite => rfl

theorem ofFloat_ne_nan_of_isFinite {number : Float} (finite : number.isFinite = true) :
    Binary64.ofFloat number ≠ .nan := by
  intro taken
  have unpacked := unpack_toModel number
  rw [taken] at unpacked
  rw [Float.isFinite, Float.Model.isFinite, unpacked] at finite
  cases finite

namespace Value

/-!
### The text of a tree as data
-/

mutual

/-- A tree and the data that it stands for have one text. A tag is printed as it is written. -/
theorem text_ofDatum : ∀ tree : Expr, (ofDatum tree).text = tree.text
  | .number _ => rfl
  | .symbol name => by
      rw [ofDatum]
      cases tagged : truth? name with
      | none => rfl
      | some value => exact (truth?_eq_some_iff.mp tagged).symm
  | .list items => by rw [ofDatum, text, Expr.text, texts_ofData items]

theorem texts_ofData : ∀ items : List Expr, texts (ofData items) = Expr.texts items
  | [] => rfl
  | item :: items => by rw [ofData, texts, Expr.texts, text_ofDatum item, texts_ofData items]

end

/-!
### Data that can be read
-/

/-- Data of finite numbers, truth values, lists, and symbols that are words, but no numerals and no tags. -/
inductive Readable : Value → Prop where
  | number {number : Float} (finite : number.isFinite = true) : Readable (.number number)
  | boolean (value : Bool) : Readable (.boolean value)
  | symbol {name : String} (word : Word name.toList []) (shape : Numeral.parse? name.toList = none)
      (untagged : truth? name = none) : Readable (.symbol name)
  | list {items : List Value} (each : ∀ item ∈ items, Readable item) : Readable (.list items)

theorem truth?_tag (value : Bool) : truth? (tag value) = some value :=
  truth?_eq_some_iff.mpr rfl

/-- A tree that stands for a value and is read back from its text. -/
structure WrittenAs (value : Value) (tree : Expr) : Prop where
  datum : ofDatum tree = value
  legible : tree.Legible
  finite : ∀ number ∈ tree.numbers, number.isInf = false

/-- The trees of the elements are the elements of a tree. -/
theorem exists_trees {items : List Value} (each : ∀ item ∈ items, ∃ tree, item.WrittenAs tree) :
    ∃ trees, ofData trees = items ∧ Expr.LegibleAll trees ∧
      ∀ number ∈ Expr.numbersAmong trees, number.isInf = false := by
  induction items with
  | nil => exact ⟨[], rfl, trivial, fun _ member => nomatch member⟩
  | cons item items inductionHypothesis =>
      obtain ⟨⟨tree, written⟩, rest⟩ := List.forall_mem_cons.mp each
      obtain ⟨trees, data, legible, finite⟩ := inductionHypothesis rest
      refine ⟨tree :: trees, ?_, ⟨written.legible, legible⟩, ?_⟩
      · rw [ofData, written.datum, data]
      · intro number member
        exact (List.mem_append.mp member).elim (written.finite number) (finite number)

/-- Such data stands for a tree that can be printed and read. -/
theorem Readable.exists_tree {value : Value} (readable : value.Readable) : ∃ tree, value.WrittenAs tree := by
  induction readable with
  | @number number finite =>
      refine ⟨.number number, rfl, ofFloat_ne_nan_of_isFinite finite, ?_⟩
      exact List.forall_mem_singleton.mpr (isInf_of_isFinite finite)
  | boolean value =>
      refine ⟨.symbol (tag value), ?_, ?_, fun _ member => nomatch member⟩
      · rw [ofDatum, truth?_tag]
      · cases value <;> exact ⟨word_of_all rfl rfl, rfl⟩
  | @symbol name word shape untagged =>
      refine ⟨.symbol name, ?_, ⟨word, shape⟩, fun _ member => nomatch member⟩
      rw [ofDatum, untagged]
  | list _ inductionHypothesis =>
      obtain ⟨trees, data, legible, finite⟩ := exists_trees inductionHypothesis
      exact ⟨.list trees, congrArg Value.list data, legible, finite⟩

/-- The text of such data is read, as a tree that stands for data equal to it. -/
theorem Readable.read_back {value : Value} (readable : value.Readable) :
    ∃ tree, readOne value.text = .ok tree ∧ (ofDatum tree == value) = true := by
  obtain ⟨tree, written⟩ := readable.exists_tree
  refine ⟨tree.reread, ?_, PartialEquivBEq.symm ?_⟩
  · rw [readOne_eq_ok_iff_read, read_eq_ok_iff, ← written.datum, text_ofDatum]
    exact program_text written.legible
  · rw [← written.datum]
    exact (same_ofDatum tree tree.reread).trans (tree.alike_reread written.legible written.finite)

end Value

/-- Quotation gives the data that a tree stands for, in any frame of any machine, and leaves the machine as it is. -/
theorem evaluate_quote (fuel : Nat) (tree : Expr) (frame : FrameId) (machine : Machine) :
    evaluate (fuel + 1) (.quote tree) frame machine = .ok (.ofDatum tree) machine := rfl

/-- Data survives print, read and quote. The text of data of finite numbers, truth values, lists and words is read as
    one tree; to quote this tree, wherever it is evaluated, yields data equal to the first and changes nothing. Of any
    tree at all, quotation yields the data that the tree stands for, and it prints as the tree does. -/
theorem quoted_data_survives :
    (∀ value : Value, value.Readable → ∃ tree, readOne value.text = .ok tree ∧
      ∀ (fuel : Nat) (frame : FrameId) (machine : Machine), ∃ again,
        evaluate (fuel + 1) (.quote tree) frame machine = .ok again machine ∧ (again == value) = true) ∧
    ∀ (tree : Expr) (fuel : Nat) (frame : FrameId) (machine : Machine),
      evaluate (fuel + 1) (.quote tree) frame machine = .ok (.ofDatum tree) machine ∧
        (Value.ofDatum tree).text = tree.text := by
  refine ⟨fun value readable => ?_, fun tree fuel frame machine =>
    ⟨evaluate_quote fuel tree frame machine, Value.text_ofDatum tree⟩⟩
  obtain ⟨tree, isRead, equal⟩ := readable.read_back
  exact ⟨tree, isRead, fun fuel frame machine => ⟨_, evaluate_quote fuel tree frame machine, equal⟩⟩

/-- A list that is headed by a keyword, with a tag, minus zero, an empty list and a symbol that begins like a number. -/
theorem quoted_data_survives_keyword :
    let value : Value := .list [.symbol "quote", .boolean true, .number (-0), .list [], .symbol "1+"]
    value.text = "(quote #t 0 () 1+)" ∧ ∃ tree, readOne "(quote #t 0 () 1+)" = .ok tree ∧
      ∃ again, evaluate 1 (.quote tree) 7 (.ofStore .vacant) = .ok again (.ofStore .vacant) ∧
        (again == value) = true := by
  intro value
  have printed : value.text = "(quote #t 0 () 1+)" := by decide
  have keyword : Value.Readable (.symbol "quote") := .symbol (word_of_all rfl rfl) rfl rfl
  have zero : Value.Readable (.number (-0)) := .number (by decide)
  have empty : Value.Readable (.list []) := .list fun _ member => nomatch member
  have numeric : Value.Readable (.symbol "1+") := .symbol (word_of_all rfl rfl) rfl rfl
  have readable : value.Readable := .list (by simp [keyword, Value.Readable.boolean, zero, empty, numeric])
  obtain ⟨tree, isRead, quoted⟩ := quoted_data_survives.1 value readable
  rw [printed] at isRead
  exact ⟨printed, tree, isRead, quoted 0 7 (.ofStore .vacant)⟩

end LexLisp
