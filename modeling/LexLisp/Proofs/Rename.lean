/-
Module: LexLisp.Proofs.Rename
Purpose: Trees with their names changed. A change of names reaches every symbol but quoted data and the keywords
  that make special forms; where a form binds, the name or the parameter list is changed throughout, since it is
  never read as an expression. Under a naming that the change suits, the changed tree is a variant of the old one.
Main exports: Expr.symbols, Expr.mentioned, Expr.rename, Expr.Suits, Expr.variant_rename, Expr.variant_self
-/
import LexLisp.Proofs.Variant

namespace LexLisp

/-!
### Occurrences
-/

namespace Expr

mutual

/-- The symbols of a tree, wherever they stand. -/
def symbols : Expr → List String
  | .number _ => []
  | .symbol name => [name]
  | .list items => symbolsAmong items

/-- The symbols of some trees. -/
def symbolsAmong : List Expr → List String
  | [] => []
  | item :: items => item.symbols ++ symbolsAmong items

end

mutual

/-- The symbols of a tree outside the operands of `quote`, but for keywords at the head of a list. -/
def mentioned : Expr → List String
  | .number _ => []
  | .symbol name => [name]
  | .list [] => []
  | .list (head :: operands) =>
    match Keyword.ofHead? head with
    | some .quote => []
    | some _ => mentionedAmong operands
    | none => head.mentioned ++ mentionedAmong operands

/-- The symbols of some trees outside the operands of `quote`, but for keywords at the head of a list. -/
def mentionedAmong : List Expr → List String
  | [] => []
  | item :: items => item.mentioned ++ mentionedAmong items

end

example : (Expr.list [.symbol "if", .symbol "define", .list [.symbol "quote", .symbol "x"],
    .list [.symbol "f", .symbol "y"]]).mentioned = ["define", "f", "y"] := by
  decide

end Expr

/-!
### Changes of names
-/

/-- Whether the first operand of a form is what the form binds or changes, and no expression. -/
def Keyword.hasTarget : Keyword → Bool
  | .define | .assign | .lambda | .lambdaOne => true
  | .quote | .sequence | .conditional => false

namespace Expr

mutual

/-- A tree with every symbol changed. -/
def renameThroughout (change : String → String) : Expr → Expr
  | .number value => .number value
  | .symbol name => .symbol (change name)
  | .list items => .list (renameAllThroughout change items)

/-- Trees with every symbol changed. -/
def renameAllThroughout (change : String → String) : List Expr → List Expr
  | [] => []
  | item :: items => item.renameThroughout change :: renameAllThroughout change items

end

mutual

/-- An expression with its names changed. Keywords and quoted data stay. -/
def rename (change : String → String) : Expr → Expr
  | .number value => .number value
  | .symbol name => .symbol (change name)
  | .list [] => .list []
  | .list (head :: operands) =>
    match Keyword.ofHead? head with
    | some keyword => .list (head :: renameOperands change keyword operands)
    | none => .list (head.rename change :: renameAll change operands)

/-- Expressions with their names changed. -/
def renameAll (change : String → String) : List Expr → List Expr
  | [] => []
  | item :: items => item.rename change :: renameAll change items

/-- The operands of a special form with their names changed. -/
def renameOperands (change : String → String) : Keyword → List Expr → List Expr
  | .quote, operands => operands
  | _, [] => []
  | keyword, operand :: operands =>
    (if keyword.hasTarget then operand.renameThroughout change else operand.rename change) ::
      renameAll change operands

end

/-- A parameter list that looks like quoted data is a parameter list. -/
example : (Expr.list [.symbol "lambda", .list [.symbol "quote", .symbol "x"],
    .list [.symbol "cons", .symbol "x", .list [.symbol "quote", .symbol "x"]]]).rename
      (fun name => if name = "x" then "y" else name) =
    .list [.symbol "lambda", .list [.symbol "quote", .symbol "y"],
      .list [.symbol "cons", .symbol "y", .list [.symbol "quote", .symbol "x"]]] := by
  rfl

theorem length_renameAll (change : String → String) (items : List Expr) :
    (renameAll change items).length = items.length := by
  induction items with
  | nil => rfl
  | cons item items inductionHypothesis => rw [renameAll, List.length_cons, inductionHypothesis, List.length_cons]

theorem length_renameOperands (change : String → String) (keyword : Keyword) (operands : List Expr) :
    (renameOperands change keyword operands).length = operands.length := by
  cases operands with
  | nil => cases keyword <;> rfl
  | cons operand operands => cases keyword <;> simp [renameOperands, length_renameAll]

mutual

/-- A change of no name changes nothing. -/
theorem renameThroughout_id : ∀ tree : Expr, tree.renameThroughout id = tree
  | .number _ => rfl
  | .symbol _ => rfl
  | .list items => by rw [renameThroughout, renameAllThroughout_id items]

theorem renameAllThroughout_id : ∀ items : List Expr, renameAllThroughout id items = items
  | [] => rfl
  | item :: items => by rw [renameAllThroughout, renameThroughout_id item, renameAllThroughout_id items]

end

mutual

/-- So it is with a change of what is mentioned only. -/
theorem rename_id : ∀ tree : Expr, tree.rename id = tree
  | .number _ => rfl
  | .symbol _ => rfl
  | .list [] => rfl
  | .list (head :: operands) => by
      rw [rename, rename_id head, renameAll_id operands]
      split
      · next keyword _ =>
          cases operands with
          | nil => cases keyword <;> rfl
          | cons operand operands =>
              have rest := renameAll_id (operand :: operands)
              simp only [renameAll, List.cons.injEq] at rest
              cases keyword <;> simp [renameOperands, renameThroughout_id, rest]
      · rfl

theorem renameAll_id : ∀ items : List Expr, renameAll id items = items
  | [] => rfl
  | item :: items => by rw [renameAll, rename_id item, renameAll_id items]

end

/-- A change of names that leaves the tags alone, and makes no keyword of another name. -/
structure Plain (change : String → String) : Prop where
  truth?_eq : ∀ name, truth? (change name) = truth? name
  ofName?_eq_none : ∀ name, Keyword.ofName? name = none → Keyword.ofName? (change name) = none

theorem plain_id : Plain id :=
  ⟨fun _ => rfl, fun _ plain => plain⟩

mutual

/-- A plain change of all symbols keeps the shape of a tree. -/
theorem shape_renameThroughout {change : String → String} (plain : Plain change) :
    ∀ tree : Expr, (tree.renameThroughout change).shape = tree.shape
  | .number _ => rfl
  | .symbol name => by rw [renameThroughout, shape, shape, plain.truth?_eq]
  | .list items => by rw [renameThroughout, shape, shape, shapes_renameAllThroughout plain items]

theorem shapes_renameAllThroughout {change : String → String} (plain : Plain change) :
    ∀ items : List Expr, shapes (renameAllThroughout change items) = shapes items
  | [] => rfl
  | item :: items => by
      rw [renameAllThroughout, shapes, shapes, shape_renameThroughout plain item,
        shapes_renameAllThroughout plain items]

end

mutual

/-- So does one of what is mentioned only: a form stays a form of the same keyword. -/
theorem shape_rename {change : String → String} (plain : Plain change) :
    ∀ tree : Expr, (tree.rename change).shape = tree.shape
  | .number _ => rfl
  | .symbol name => by rw [rename, shape, shape, plain.truth?_eq]
  | .list [] => rfl
  | .list (head :: operands) => by
      rw [rename]
      split
      · next keyword _ =>
          rw [shape, shape, shapes, shapes]
          cases operands with
          | nil => cases keyword <;> rfl
          | cons operand operands =>
              have rest := shapes_renameAll plain (operand :: operands)
              simp only [renameAll, shapes, List.cons.injEq] at rest
              cases keyword <;> simp [renameOperands, shapes, Keyword.hasTarget, rest,
                shape_renameThroughout plain]
      · rw [shape, shape, shapes, shapes, shape_rename plain head, shapes_renameAll plain operands]

theorem shapes_renameAll {change : String → String} (plain : Plain change) :
    ∀ items : List Expr, shapes (renameAll change items) = shapes items
  | [] => rfl
  | item :: items => by
      rw [renameAll, shapes, shapes, shape_rename plain item, shapes_renameAll plain items]

end

/-!
### Names that forms bind
-/

variable {change : String → String}

/-- The name that a form binds is changed with its target, or is refused on both sides. -/
theorem bindingName_rename (keyword : Keyword) (target : Expr) :
    resemblance.Results (fun name name' => name' = change name ∧ target = .symbol name)
      (bindingName keyword target) (bindingName keyword (target.renameThroughout change)) := by
  cases target with
  | symbol name => exact ⟨rfl, rfl⟩
  | number | list => exact ⟨rfl, fun literal => literal.elim⟩

/-- The parameters are what the list holds; they are changed one by one, and none is repeated that was not. -/
theorem parameterNames_rename : ∀ (items : List Expr) (taken : List String),
    (∀ name ∈ taken ++ symbolsAmong items, ∀ other ∈ taken ++ symbolsAmong items,
      change name = change other → name = other) →
        resemblance.Results (fun names names' => names' = names.map change ∧ items = names.map .symbol)
          (parameterNames taken items)
          (parameterNames (taken.map change) (renameAllThroughout change items))
  | [], _, _ => ⟨rfl, rfl⟩
  | item :: items, taken, distinct => by
      apply (bindingName_rename .lambda item).bind
      rintro name _ ⟨rfl, rfl⟩
      rw [symbolsAmong, symbols] at distinct
      have repeated : change name ∈ taken.map change ↔ name ∈ taken := by
        constructor
        · intro member
          obtain ⟨other, inside, same⟩ := List.mem_map.mp member
          exact distinct other (by simp [inside]) name (by simp) same ▸ inside
        · exact List.mem_map_of_mem
      by_cases inside : name ∈ taken
      · rw [if_pos inside, if_pos (repeated.mpr inside)]
        exact ⟨rfl, fun literal => literal.elim⟩
      · rw [if_neg inside, if_neg fun member => inside (repeated.mp member)]
        have rest := parameterNames_rename items (name :: taken) fun one inOne two inTwo =>
          distinct one (by grind) two (by grind)
        apply rest.bind
        rintro names _ ⟨rfl, rfl⟩
        exact ⟨rfl, rfl⟩

/-- Parameters are accepted under changed names if no two of them become one. -/
theorem parametersOf_rename (target : Expr)
    (distinct : ∀ name ∈ target.symbols, ∀ other ∈ target.symbols, change name = change other → name = other) :
    resemblance.Results (fun names names' => names' = names.map change ∧ target = .list (names.map .symbol))
      (parametersOf target) (parametersOf (target.renameThroughout change)) := by
  cases target with
  | list items =>
      have results := parameterNames_rename items [] distinct
      exact results.mono fun _ _ good => ⟨good.1, congrArg Expr.list good.2⟩
  | number | symbol => exact ⟨rfl, fun literal => literal.elim⟩

theorem symbolsAmong_map_symbol (names : List String) : symbolsAmong (names.map .symbol) = names := by
  induction names with
  | nil => rfl
  | cons name names inductionHypothesis =>
      rw [List.map_cons, symbolsAmong, symbols, inductionHypothesis, List.singleton_append]

/-!
### The changed tree is a variant
-/

/-- A naming under which a change of names may be made where these symbols occur and these names are mentioned. -/
structure Suits (naming : Naming) (change : String → String) (symbols mentioned : List String) : Prop where
  inStep : ∀ name ∈ symbols, naming.InStep name (change name)
  stands : ∀ name ∈ mentioned, naming.stands name (change name)
  distinct : ∀ name ∈ symbols, ∀ other ∈ symbols, change name = change other → name = other

variable {Region : Type} {naming : Region → Naming} {region : Region}

/-- A change that suits some names suits fewer. -/
theorem Suits.mono {symbols symbols' mentioned mentioned' : List String}
    (suits : Suits (naming region) change symbols mentioned) (fewer : symbols' ⊆ symbols)
    (fewerMentioned : mentioned' ⊆ mentioned) : Suits (naming region) change symbols' mentioned' where
  inStep name member := suits.inStep name (fewer member)
  stands name member := suits.stands name (fewerMentioned member)
  distinct name member other member' := suits.distinct name (fewer member) other (fewer member')

theorem symbols_subset {item : Expr} {items : List Expr} (member : item ∈ items) :
    item.symbols ⊆ symbolsAmong items := by
  induction items with
  | nil => cases member
  | cons first rest inductionHypothesis =>
      rw [symbolsAmong]
      rcases List.mem_cons.mp member with rfl | later
      · exact List.subset_append_left _ _
      · exact List.Subset.trans (inductionHypothesis later) (List.subset_append_right _ _)

mutual

/-- What is mentioned is among the symbols. -/
theorem mentioned_subset_symbols : ∀ tree : Expr, tree.mentioned ⊆ tree.symbols
  | .number _ => List.Subset.refl _
  | .symbol _ => List.Subset.refl _
  | .list [] => List.Subset.refl _
  | .list (head :: operands) => by
      have inHead := mentioned_subset_symbols head
      have inOperands := mentionedAmong_subset_symbolsAmong operands
      rw [mentioned, symbols, symbolsAmong]
      split
      · exact List.nil_subset _
      · exact List.subset_append_of_subset_right _ inOperands
      · exact List.append_subset.mpr ⟨List.subset_append_of_subset_left _ inHead,
          List.subset_append_of_subset_right _ inOperands⟩

/-- So it is in a row of trees. -/
theorem mentionedAmong_subset_symbolsAmong : ∀ items : List Expr, mentionedAmong items ⊆ symbolsAmong items
  | [] => List.Subset.refl _
  | item :: items => by
      rw [mentionedAmong, symbolsAmong]
      exact List.append_subset.mpr
        ⟨List.subset_append_of_subset_left _ (mentioned_subset_symbols item),
          List.subset_append_of_subset_right _ (mentionedAmong_subset_symbolsAmong items)⟩

end

/-- Parameters that are changed are bound in step, and no other naming is needed inside. -/
theorem Suits.opens {symbols mentioned : List String} (suits : Suits (naming region) change symbols mentioned)
    {names : List String} (among : names ⊆ symbols) :
    (naming region).Opens names (names.map change) (naming region) where
  inStep := by
    rw [List.forall₂_map_right_iff, List.forall₂_same]
    exact fun name member => suits.inStep name (among member)
  inSight _ _ stands := Or.inr stands

/-- Trees are variants in a row if each is. -/
theorem variants_renameAll {items : List Expr}
    (each : ∀ item ∈ items, Variant naming region item (item.rename change)) :
    Variants naming region items (renameAll change items) := by
  induction items with
  | nil => exact .nil
  | cons item items inductionHypothesis =>
      obtain ⟨here, later⟩ := List.forall_mem_cons.mp each
      exact .cons here (inductionHypothesis later)

/-- A form with its names changed does the same, if its operands do as expressions. -/
theorem formVariant_rename {keyword : Keyword} {operands : List Expr}
    (suits : Suits (naming region) change (symbolsAmong operands) (mentionedAmong operands))
    (each : ∀ item ∈ operands, Variant naming region item (item.rename change)) :
    FormVariant naming region (.of keyword operands) (.of keyword (renameOperands change keyword operands)) := by
  cases accepted : keyword.arity.accepts operands.length with
  | false =>
      have counts := length_renameOperands change keyword operands
      rw [Form.of_miscounted accepted, Form.of_miscounted (counts ▸ accepted)]
      exact .refused rfl
  | true =>
      cases Keyword.takes_of_accepts accepted with
      | quote body => exact .quoted rfl
      | define target body =>
          apply FormVariant.checked (bindingName_rename .define target)
          rintro name _ ⟨rfl, rfl⟩
          exact .defined (suits.inStep name (by simp [symbolsAmong, symbols])) (each body (by simp))
      | assign target body =>
          apply FormVariant.checked (bindingName_rename .assign target)
          rintro name _ ⟨rfl, rfl⟩
          exact .assigned (suits.stands name (by simp [mentionedAmong, mentioned])) (each body (by simp))
      | sequence first rest =>
          obtain ⟨here, later⟩ := List.forall_mem_cons.mp each
          exact .sequence here (variants_renameAll later)
      | conditional condition consequent alternative =>
          exact .conditional (each _ (by simp)) (each _ (by simp)) (each _ (by simp))
      | lambda parameters body =>
          have inParameters : parameters.symbols ⊆ symbolsAmong [parameters, body] :=
            symbols_subset List.mem_cons_self
          apply FormVariant.checked (parametersOf_rename parameters
            (suits.mono inParameters (List.Subset.refl _)).distinct)
          rintro names _ ⟨rfl, rfl⟩
          rw [symbols, symbolsAmong_map_symbol] at inParameters
          exact .procedure (suits.opens inParameters) (each body (by simp))
      | lambdaOne parameter body =>
          apply FormVariant.checked (bindingName_rename .lambdaOne parameter)
          rintro name _ ⟨rfl, rfl⟩
          have opens : (naming region).Opens [name] [change name] (naming region) :=
            suits.opens (by simp [symbolsAmong, symbols])
          exact .procedure opens (each body (by simp))

/-- Quoted data is left alone. -/
theorem formVariant_quote (operands : List Expr) :
    FormVariant naming region (.of .quote operands) (.of .quote operands) := by
  cases accepted : Keyword.quote.arity.accepts operands.length with
  | false =>
      rw [Form.of_miscounted accepted]
      exact .refused rfl
  | true =>
      cases Keyword.takes_of_accepts accepted with
      | quote body => exact .quoted rfl

/-- No head becomes a keyword. -/
theorem ofHead?_rename (plain : Plain change) {head : Expr} (unnamed : Keyword.ofHead? head = none) :
    Keyword.ofHead? (head.rename change) = none := by
  cases head with
  | number value => rfl
  | symbol name => exact plain.ofName?_eq_none name unnamed
  | list items =>
      cases items with
      | nil => rfl
      | cons first rest =>
          rw [rename]
          split <;> rfl

mutual

/-- Under a naming that a change of names suits, the changed tree is a variant. -/
theorem variant_rename (plain : Plain change) : ∀ tree : Expr,
    Suits (naming region) change tree.symbols tree.mentioned → Variant naming region tree (tree.rename change)
  | .number value => fun _ => .number value
  | .symbol name => by
      intro suits
      have stands := suits.stands name (by simp [mentioned])
      cases truth : truth? name with
      | some value => exact .tag truth ((plain.truth?_eq name).trans truth)
      | none => exact .variable truth ((plain.truth?_eq name).trans truth) stands
  | .list [] => fun _ => .empty
  | .list (head :: operands) => by
      intro suits
      have inHead : head.symbols ⊆ (list (head :: operands)).symbols := List.subset_append_left _ _
      have inOperands : symbolsAmong operands ⊆ (list (head :: operands)).symbols :=
        List.subset_append_right _ _
      have atHead := variant_rename plain head
      have each := variant_rename_each plain operands
      cases named : Keyword.ofHead? head with
      | none =>
          simp only [mentioned, named] at suits
          simp only [rename, named]
          have suitsOperands := suits.mono inOperands (List.subset_append_right _ _)
          exact .application named (ofHead?_rename plain named)
            (atHead (suits.mono inHead (List.subset_append_left _ _)))
            (variants_renameAll (each suitsOperands))
      | some keyword =>
          simp only [rename, named]
          refine .form named named ?_
          by_cases quotes : keyword = .quote
          · subst quotes
            rw [renameOperands]
            exact formVariant_quote operands
          · have mentions : mentionedAmong operands ⊆ (list (head :: operands)).mentioned := by
              simp [mentioned, named]
            have suitsOperands := suits.mono inOperands mentions
            exact formVariant_rename suitsOperands (each suitsOperands)

/-- Each tree of a row is a variant of its changed form, if the change suits the row. -/
theorem variant_rename_each (plain : Plain change) : ∀ items : List Expr,
    Suits (naming region) change (symbolsAmong items) (mentionedAmong items) →
      ∀ item ∈ items, Variant naming region item (item.rename change)
  | [] => fun _ _ member => nomatch member
  | first :: rest => by
      intro suits
      have here := suits.mono (List.subset_append_left _ _) (List.subset_append_left _ _)
      have later := suits.mono (List.subset_append_right _ _) (List.subset_append_right _ _)
      exact List.forall_mem_cons.mpr ⟨variant_rename plain first here, variant_rename_each plain rest later⟩

end

/-- A tree is a variant of itself where the naming leaves its symbols be and has in sight what it mentions. -/
theorem variant_self {tree : Expr} (inStep : ∀ name, (naming region).InStep name name)
    (stands : ∀ name ∈ tree.mentioned, (naming region).stands name name) : Variant naming region tree tree := by
  have renamed := variant_rename plain_id tree
    (⟨fun name _ => inStep name, stands, fun _ _ _ _ same => same⟩ : Suits (naming region) id _ _)
  rwa [rename_id] at renamed

end Expr

end LexLisp
