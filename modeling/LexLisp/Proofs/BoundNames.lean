/-
Module: LexLisp.Proofs.BoundNames
Purpose: The name of a parameter does not matter. Where a procedure form stands in an expression, one of its
  parameters may be given another name that does not occur in the form: the expression then ends as before, but
  for symbols as data, which are the names themselves. Frames made inside the form bind the new name and all other
  frames what they bound, so the proof takes two regions, with the new name out of sight inside.
Main exports: Place, Place.fill, Place.IsParameterList, Expr.BindsParameter, replacing, Resembling,
  evaluate_rename_parameter
-/
import LexLisp.Proofs.Coupling

namespace LexLisp

/-!
### Places
-/

/-- Whether a form evaluates the operand that follows these ones, at once or in a procedure that it makes. It does
    not evaluate quoted data, nor what it binds or changes. -/
def Keyword.evaluates : Keyword → List Expr → Bool
  | .quote, _ => false
  | keyword, earlier => !(keyword.hasTarget && earlier.isEmpty)

/-- A place in a tree: the whole tree, or a place in an element of a list. -/
inductive Place where
  | here
  | item (before : List Expr) (inside : Place) (after : List Expr)

namespace Place

/-- The tree with another one at a place. -/
def fill : Place → Expr → Expr
  | .here, tree => tree
  | .item before inside after, tree => .list (before ++ inside.fill tree :: after)

/-- Whether the element of a list that follows these ones is an expression. -/
def evaluatedAfter : List Expr → Bool
  | [] => true
  | head :: earlier => (Keyword.ofHead? head).all (·.evaluates earlier)

/-- The place of the parameter list in a procedure form that is an expression. What stands there is never
    evaluated, so it is no form even if it looks like one. -/
def IsParameterList : Place → Prop
  | .here => False
  | .item before .here after => before = [.symbol "lambda"] ∧ after.length = 1
  | .item before inside _ => evaluatedAfter before = true ∧ inside.IsParameterList

end Place

/-!
### Expressions with one part replaced
-/

/-- Trees that agree as data but for names, and are the same symbol or both none. -/
structure Lookalike (tree tree' : Expr) : Prop where
  shape_eq : tree.shape = tree'.shape
  symbol?_eq : tree.symbol? = tree'.symbol?

/-- Trees that are the same as parameter lists, or fail as parameter lists alike. -/
def SameParameters (tree tree' : Expr) : Prop :=
  resemblance.Results (· = ·) (parametersOf tree) (parametersOf tree')

theorem results_self {α : Type} (result : Except Fault α) : resemblance.Results (· = ·) result result := by
  cases result with
  | ok names => exact rfl
  | error fault => exact .refl fault

theorem bindingName_of_symbol? (keyword : Keyword) {tree tree' : Expr} (same : tree.symbol? = tree'.symbol?) :
    resemblance.Results (· = ·) (bindingName keyword tree) (bindingName keyword tree') := by
  cases tree with
  | symbol name =>
      cases tree' with
      | symbol name' => exact Option.some.inj same
      | number | list => cases same
  | number | list =>
      cases tree' with
      | symbol name' => cases same
      | number | list => exact ⟨rfl, fun literal => literal.elim⟩

/-- Only the symbols in a parameter list matter. -/
theorem sameParameters_list {items items' : List Expr} (alike : List.Forall₂ Lookalike items items') :
    SameParameters (.list items) (.list items') := by
  suffices results : ∀ taken, resemblance.Results (· = ·) (parameterNames taken items)
      (parameterNames taken items') from results []
  induction alike with
  | nil => exact fun _ => rfl
  | cons here _ inductionHypothesis =>
      intro taken
      apply (bindingName_of_symbol? .lambda here.symbol?_eq).bind
      rintro name _ rfl
      by_cases inside : name ∈ taken
      · rw [if_pos inside, if_pos inside]
        exact Kinship.Faults.refl _
      · rw [if_neg inside, if_neg inside]
        apply (inductionHypothesis (name :: taken)).bind
        rintro names _ rfl
        exact rfl

namespace Lookalike

theorem shapes_eq {items items' : List Expr} (alike : List.Forall₂ Lookalike items items') :
    Expr.shapes items = Expr.shapes items' := by
  induction alike with
  | nil => rfl
  | cons here _ inductionHypothesis => rw [Expr.shapes, Expr.shapes, here.shape_eq, inductionHypothesis]

theorem around {tree tree' : Expr} (alike : Lookalike tree tree') (before after : List Expr) :
    List.Forall₂ Lookalike (before ++ tree :: after) (before ++ tree' :: after) := by
  have same : ∀ items, List.Forall₂ Lookalike items items :=
    fun items => List.forall₂_same.mpr fun _ _ => ⟨rfl, rfl⟩
  exact List.rel_append (same before) (.cons alike (same after))

theorem fill {tree tree' : Expr} (alike : Lookalike tree tree') :
    ∀ place : Place, Lookalike (place.fill tree) (place.fill tree')
  | .here => alike
  | .item before inside after =>
      ⟨congrArg Expr.list (shapes_eq ((alike.fill inside).around before after)), rfl⟩

end Lookalike

/-- The operands of a form that it evaluates, at once or in a procedure that it makes. -/
def Keyword.expressions : Keyword → List Expr → List Expr
  | .quote, _ => []
  | keyword, operands => if keyword.hasTarget then operands.tail else operands

theorem Keyword.ofHead?_eq_bind (head : Expr) : Keyword.ofHead? head = head.symbol?.bind Keyword.ofName? := by
  cases head <;> rfl

theorem Keyword.eq_lambda_of_ofHead? {head : Expr} (named : Keyword.ofHead? head = some .lambda) :
    head = .symbol "lambda" := by
  cases head with
  | symbol name =>
      rw [Keyword.ofHead?, Keyword.ofName?] at named
      have found := List.find?_some named
      rw [← beq_iff_eq.mp found, Keyword.name]
  | number | list => cases named

section

variable {Region : Type} {naming : Region → Naming} {region : Region}
  (transparent : ∀ name, (naming region).stands name name)
include transparent

theorem variant_refl (tree : Expr) : Variant naming region tree tree :=
  Expr.variant_self (fun name => Naming.inStep_of_stands (transparent name)) fun name _ => transparent name

theorem variants_refl (trees : List Expr) : Variants naming region trees trees := by
  induction trees with
  | nil => exact .nil
  | cons tree _ inductionHypothesis => exact .cons (variant_refl transparent tree) inductionHypothesis

theorem variants_around {tree tree' : Expr} (variant : Variant naming region tree tree')
    (before after : List Expr) :
    Variants naming region (before ++ tree :: after) (before ++ tree' :: after) := by
  induction before with
  | nil => exact .cons variant (variants_refl transparent after)
  | cons first _ inductionHypothesis => exact .cons (variant_refl transparent first) inductionHypothesis

/-- Where an operand is exchanged, the form evaluates variants if the operand is a variant or not evaluated. -/
theorem variants_expressions {keyword : Keyword} {earlier : List Expr} {tree tree' : Expr}
    (variant : keyword.evaluates earlier = true → Variant naming region tree tree') (after : List Expr) :
    Variants naming region (keyword.expressions (earlier ++ tree :: after))
      (keyword.expressions (earlier ++ tree' :: after)) := by
  have around : Variant naming region tree tree' → ∀ before : List Expr,
      Variants naming region (before ++ tree :: after) (before ++ tree' :: after) :=
    fun variant before => variants_around transparent variant before after
  cases keyword with
  | quote => exact .nil
  | sequence | conditional => exact around (variant rfl) earlier
  | define | assign | lambda | lambdaOne =>
      cases earlier with
      | nil => exact variants_refl transparent after
      | cons target earlier => exact around (variant rfl) earlier

/-- A form with lookalikes for operands does the same if what it evaluates are variants and its parameters stay
    what they were. -/
theorem formVariant_lookalike {keyword : Keyword} {operands operands' : List Expr}
    (alike : List.Forall₂ Lookalike operands operands')
    (evaluated : Variants naming region (keyword.expressions operands) (keyword.expressions operands'))
    (parameters : ∀ names body names' body', keyword = .lambda → operands = [names, body] →
      operands' = [names', body'] → SameParameters names names') :
    FormVariant naming region (.of keyword operands) (.of keyword operands') := by
  have opens : ∀ names, (naming region).Opens names names (naming region) := fun names =>
    ⟨List.forall₂_same.mpr fun name _ => Naming.inStep_of_stands (transparent name),
      fun _ _ stands => Or.inr stands⟩
  cases accepted : keyword.arity.accepts operands.length with
  | false =>
      rw [Form.of_miscounted accepted, Form.of_miscounted (alike.length_eq ▸ accepted)]
      exact .refused rfl
  | true =>
      cases Keyword.takes_of_accepts accepted with
      | quote body =>
          obtain _ | ⟨here, _ | _⟩ := alike
          exact .quoted here.shape_eq
      | define target body =>
          obtain _ | ⟨here, _ | ⟨_, _ | _⟩⟩ := alike
          obtain _ | ⟨value, _⟩ := evaluated
          apply FormVariant.checked (bindingName_of_symbol? .define here.symbol?_eq)
          rintro name _ rfl
          exact .defined (Naming.inStep_of_stands (transparent name)) value
      | assign target body =>
          obtain _ | ⟨here, _ | ⟨_, _ | _⟩⟩ := alike
          obtain _ | ⟨value, _⟩ := evaluated
          apply FormVariant.checked (bindingName_of_symbol? .assign here.symbol?_eq)
          rintro name _ rfl
          exact .assigned (transparent name) value
      | sequence first rest =>
          obtain _ | ⟨_, _⟩ := alike
          obtain _ | ⟨here, later⟩ := evaluated
          exact .sequence here later
      | conditional condition consequent alternative =>
          obtain _ | ⟨_, _ | ⟨_, _ | ⟨_, _ | _⟩⟩⟩ := alike
          obtain _ | ⟨test, _ | ⟨onTrue, _ | ⟨onFalse, _⟩⟩⟩ := evaluated
          exact .conditional test onTrue onFalse
      | lambda names body =>
          obtain _ | ⟨_, _ | ⟨_, _ | _⟩⟩ := alike
          obtain _ | ⟨result, _⟩ := evaluated
          apply FormVariant.checked (parameters _ _ _ _ rfl rfl rfl)
          rintro names _ rfl
          exact .procedure (opens names) result
      | lambdaOne parameter body =>
          obtain _ | ⟨here, _ | ⟨_, _ | _⟩⟩ := alike
          obtain _ | ⟨result, _⟩ := evaluated
          apply FormVariant.checked (bindingName_of_symbol? .lambdaOne here.symbol?_eq)
          rintro name _ rfl
          exact .procedure (opens [name]) result

/-- A list with an element exchanged for a lookalike is a variant if the element is one, should it be an
    expression, and if the parameters stay what they were, should it be a parameter list. -/
theorem variant_list_around {before after : List Expr} {tree tree' : Expr} (alike : Lookalike tree tree')
    (compound : tree.symbol? = none)
    (variant : Place.evaluatedAfter before = true → Variant naming region tree tree')
    (parameters : before = [.symbol "lambda"] → after.length = 1 → SameParameters tree tree') :
    Variant naming region (.list (before ++ tree :: after)) (.list (before ++ tree' :: after)) := by
  cases before with
  | nil =>
      have unnamed : Keyword.ofHead? tree = none := by rw [Keyword.ofHead?_eq_bind, compound, Option.bind_none]
      have unnamed' : Keyword.ofHead? tree' = none := by
        rw [Keyword.ofHead?_eq_bind, ← alike.symbol?_eq, compound, Option.bind_none]
      exact .application unnamed unnamed' (variant rfl) (variants_refl transparent after)
  | cons head earlier =>
      simp only [Place.evaluatedAfter] at variant
      cases named : Keyword.ofHead? head with
      | none =>
          rw [named] at variant
          exact .application named named (variant_refl transparent head)
            (variants_around transparent (variant rfl) earlier after)
      | some keyword =>
          rw [named] at variant
          refine .form named named (formVariant_lookalike transparent (alike.around earlier after)
            (variants_expressions transparent variant after) ?_)
          rintro names body names' body' rfl here there
          cases earlier with
          | nil =>
              obtain ⟨rfl, rfl⟩ := List.cons.inj here
              obtain ⟨rfl, _⟩ := List.cons.inj there
              exact parameters (by rw [Keyword.eq_lambda_of_ofHead? named]) rfl
          | cons parameter earlier =>
              obtain ⟨rfl, _⟩ := List.cons.inj here
              obtain ⟨rfl, _⟩ := List.cons.inj there
              exact results_self _

/-- Lookalike lists that are variants can take each other's place, but for the place of a parameter list. -/
theorem variant_fill {tree tree' : Expr} (alike : Lookalike tree tree') (compound : tree.symbol? = none)
    (variant : Variant naming region tree tree') :
    ∀ place : Place, ¬ place.IsParameterList → Variant naming region (place.fill tree) (place.fill tree')
  | .here, _ => variant
  | .item before .here after, elsewhere =>
      variant_list_around transparent alike compound (fun _ => variant)
        fun isLambda single => absurd ⟨isLambda, single⟩ elsewhere
  | .item before (.item around inside behind) after, elsewhere => by
      apply variant_list_around transparent (alike.fill (.item around inside behind)) rfl
      · intro evaluated
        exact variant_fill alike compound variant (.item around inside behind)
          fun isList => elsewhere ⟨evaluated, isList⟩
      · -- A list at the place of parameters counts by its symbols, and the exchanged tree is none.
        intro _ _
        exact sameParameters_list ((alike.fill inside).around around behind)

end

/-!
### A parameter with another name
-/

/-- Another name in the place of one. -/
def replacing (old new name : String) : String :=
  if name = old then new else name

/-- A procedure form with a parameter of a name. -/
inductive Expr.BindsParameter (name : String) : Expr → Prop where
  | lambda {parameters : List Expr} {body : Expr} (parameter : .symbol name ∈ parameters) :
      BindsParameter name (.list [.symbol "lambda", .list parameters, body])
  | lambdaOne (body : Expr) : BindsParameter name (.list [.symbol "lambda-one", .symbol name, body])

/-- A name that can be a variable: no keyword and no tag. -/
def IsVariable (name : String) : Prop :=
  Keyword.ofName? name = none ∧ truth? name = none

instance (name : String) : Decidable (IsVariable name) :=
  inferInstanceAs (Decidable (_ ∧ _))

/-- Both yield values that agree but for symbols, with procedures that take as many operands; or both stop, for
    faults of one class or for want of fuel. -/
def Resembling : Except Stop Value → Except Stop Value → Prop
  | .ok value, .ok value' => Akin resemblance value value'
  | .error stop, .error stop' => resemblance.Stops stop stop'
  | _, _ => False

/-- Two runs in step end alike. -/
theorem Together.resembling {comparison : Comparison} {scopes : Scopes comparison}
    {ending ending' : Ending Value} (together : Together scopes Scopes.Akin ending ending') :
    Resembling ending.outcome ending'.outcome := by
  rcases together.cases with ⟨value, value', later, later', grown, rfl, rfl, _, _, akin⟩ |
    ⟨stop, stop', later, later', grown, rfl, rfl, stops, _, _⟩
  · apply akin.refine ⟨False.elim, ?_⟩
    intro procedure procedure' pairs
    obtain ⟨inner, opens, _⟩ := pairs.variant
    exact congrArg Arity.exactly opens.length_eq
  · rcases stops.cases with ⟨fault, fault', rfl, rfl, faults⟩ | ⟨rfl, rfl⟩
    · exact ⟨faults.1, False.elim⟩
    · exact trivial

section

variable {old new : String}

theorem plain_replacing (variableOld : IsVariable old) (variableNew : IsVariable new) :
    Expr.Plain (replacing old new) where
  truth?_eq name := by
    unfold replacing
    split
    · next same => rw [same, variableOld.2, variableNew.2]
    · rfl
  ofName?_eq_none name plain := by
    unfold replacing
    split
    · exact variableNew.1
    · exact plain

theorem replacing_inj {name other : String} (old_ne : name ≠ new) (other_ne : other ≠ new) :
    replacing old new name = replacing old new other ↔ name = other := by
  unfold replacing
  grind

/-- The names inside the form: the new name is out of sight, and stands for the old one. -/
def Naming.replacing (old new : String) : Naming where
  stands name name' := name ≠ new ∧ name' = LexLisp.replacing old new name
  one_to_one := by
    rintro name _ other _ ⟨shown, rfl⟩ ⟨otherShown, rfl⟩
    exact (replacing_inj shown otherShown).symm

/-- Every name stands for itself. -/
def Naming.same : Naming where
  stands name name' := name = name'
  one_to_one := by
    rintro name _ other _ rfl rfl
    exact Iff.rfl

/-- The two sides of the form. -/
inductive Side where
  | outside
  | inside

/-- The naming of each side. -/
def Side.naming (old new : String) : Side → Naming
  | .outside => .same
  | .inside => .replacing old new

/-- Inside the form, a tree without the new name is a variant of the tree with the name replaced. -/
theorem suits_replacing {tree : Expr} (fresh : new ∉ tree.symbols) :
    Expr.Suits (Naming.replacing old new) (replacing old new) tree.symbols tree.mentioned := by
  have stands : ∀ name ∈ tree.symbols, (Naming.replacing old new).stands name (replacing old new name) :=
    fun name member => ⟨fun same => fresh (same ▸ member), rfl⟩
  exact ⟨fun name member => Naming.inStep_of_stands (stands name member),
    fun name member => stands name (tree.mentioned_subset_symbols member),
    fun name member other member' =>
      (replacing_inj (stands name member).1 (stands other member').1).mp⟩

/-- The body of the form is inside, if the old name is a parameter. -/
theorem opens_inside {names : List String} (parameter : old ∈ names) (fresh : new ∉ names) :
    Naming.same.Opens names (names.map (replacing old new)) (.replacing old new) where
  inStep := by
    rw [List.forall₂_map_right_iff, List.forall₂_same]
    exact fun name member => Naming.inStep_of_stands ⟨fun same => fresh (same ▸ member), rfl⟩
  inSight := by
    rintro name _ ⟨_, rfl⟩
    by_cases same : name = old
    · exact Or.inl (same ▸ parameter)
    · exact Or.inr (if_neg same).symm

theorem procedure_inside (plain : Expr.Plain (replacing old new)) {names : List String} {body : Expr}
    (parameter : old ∈ names) (fresh : new ∉ names) (freshBody : new ∉ body.symbols) :
    FormVariant (Side.naming old new) .outside (.procedure names body)
      (.procedure (names.map (replacing old new)) (body.rename (replacing old new))) := by
  have opens : (Side.naming old new .outside).Opens names (names.map (replacing old new))
      (Side.naming old new .inside) := opens_inside parameter fresh
  have variant : Variant (Side.naming old new) .inside body (body.rename (replacing old new)) :=
    Expr.variant_rename plain body (suits_replacing freshBody)
  exact .procedure opens variant

/-- The form with its parameter renamed is a variant. -/
theorem variant_parameter {form : Expr} (binds : form.BindsParameter old) (fresh : new ∉ form.symbols)
    (plain : Expr.Plain (replacing old new)) :
    Variant (Side.naming old new) .outside form (form.rename (replacing old new)) := by
  cases binds with
  | @lambda parameters body parameter =>
      have freshParameters : new ∉ (Expr.list parameters).symbols :=
        fun member => fresh (Expr.symbols_subset (by simp) member)
      have freshBody : new ∉ body.symbols := fun member => fresh (Expr.symbols_subset (by simp) member)
      have does : FormVariant (Side.naming old new) .outside (.of .lambda [.list parameters, body])
          (.of .lambda [(Expr.list parameters).renameThroughout (replacing old new),
            body.rename (replacing old new)]) := by
        apply FormVariant.checked
          (Expr.parametersOf_rename (.list parameters) (suits_replacing freshParameters).distinct)
        rintro names _ ⟨rfl, same⟩
        rw [same, Expr.symbols, Expr.symbolsAmong_map_symbol] at freshParameters
        rw [Expr.list.inj same, List.mem_map_of_injective fun _ _ => Expr.symbol.inj] at parameter
        exact procedure_inside plain parameter freshParameters freshBody
      exact .form rfl rfl does
  | lambdaOne body =>
      have freshParameter : new ∉ [old] :=
        fun member => fresh (List.mem_append_right _ (List.mem_append_left _ member))
      have freshBody : new ∉ body.symbols := fun member => fresh (Expr.symbols_subset (by simp) member)
      have does : FormVariant (Side.naming old new) .outside (.of .lambdaOne [.symbol old, body])
          (.of .lambdaOne [.symbol (replacing old new old), body.rename (replacing old new)]) :=
        procedure_inside plain (List.mem_singleton_self old) freshParameter freshBody
      exact .form rfl rfl does

end

/-- The name of a parameter does not matter. In an expression with a procedure form at some place, which may be any
    but that of the parameter list of another, let a parameter of the form be renamed throughout the form, but for
    the operands of `quote`, to a name that does not occur in it. In every well-formed store and every frame, and
    with every amount of fuel, both expressions run out of fuel, or fail with faults of one class, or yield the
    same number, the same truth value, lists that agree element by element, two symbols, procedures that take as
    many operands, or the same primitive. -/
theorem evaluate_rename_parameter {place : Place} {form : Expr} {old new : String}
    (binds : form.BindsParameter old) (fresh : new ∉ form.symbols) (variableOld : IsVariable old)
    (variableNew : IsVariable new) (evaluated : ¬ place.IsParameterList) {machine : Machine}
    (wellFormed : machine.store.WellFormed) {frame : FrameId} (made : frame < machine.store.size) (fuel : Nat) :
    Resembling (Ending.outcome (evaluate fuel (place.fill form) frame machine))
      (Ending.outcome (evaluate fuel (place.fill (form.rename (replacing old new))) frame machine)) := by
  let comparison : Comparison := ⟨Side, Side.naming old new, False, machine.store.closures, machine.store.closures⟩
  have coupled : Coupled (.uniform machine.store.size .outside : Scopes comparison) machine.store machine.store :=
    coupled_uniform rfl rfl wellFormed wellFormed rfl (fun _ => rfl) (fun _ _ same => same) (fun _ _ _ => rfl)
      fun _ _ _ _ _ _ _ _ _ => rfl
  have plain := plain_replacing variableOld variableNew
  have compound : form.symbol? = none := by cases binds <;> rfl
  have compound' : (form.rename (replacing old new)).symbol? = none := by cases binds <;> rfl
  have alike : Lookalike form (form.rename (replacing old new)) :=
    ⟨(Expr.shape_rename plain form).symm, compound.trans compound'.symm⟩
  have variant := variant_fill (fun _ => rfl) alike compound (variant_parameter binds fresh plain) place evaluated
  have together := evaluate_keepsStep comparison fuel _ _ _ _ _ _ coupled made variant fun literal => literal.elim
  exact together.resembling

/-- The parameter list `(quote x)` is no quoted data, and the operand of `quote` in the body is. The new name is
    bound outside. -/
theorem evaluate_rename_parameter_quote :
    let form : Expr := .list [.symbol "lambda", .list [.symbol "quote", .symbol "x"],
      .list [.symbol "begin", .list [.symbol "set!", .symbol "x", .symbol "quote"],
        .list [.symbol "cons", .symbol "x", .list [.symbol "quote", .symbol "x"]]]]
    let renamed : Expr := .list [.symbol "lambda", .list [.symbol "quote", .symbol "y"],
      .list [.symbol "begin", .list [.symbol "set!", .symbol "y", .symbol "quote"],
        .list [.symbol "cons", .symbol "y", .list [.symbol "quote", .symbol "x"]]]]
    let machine : Machine := .ofStore (Store.fresh.define Store.globalFrame "y" (.number 3))
    form.BindsParameter "x" ∧ "y" ∉ form.symbols ∧ form.rename (replacing "x" "y") = renamed ∧
      ∀ fuel, Resembling
        (Ending.outcome (evaluate fuel (.list [form, .number 1, .number 2]) Store.globalFrame machine))
        (Ending.outcome (evaluate fuel (.list [renamed, .number 1, .number 2]) Store.globalFrame machine)) := by
  intro form renamed machine
  have binds : form.BindsParameter "x" := .lambda (by simp)
  have fresh : "y" ∉ form.symbols := by decide
  have same : form.rename (replacing "x" "y") = renamed := by rfl
  have wellFormed : machine.store.WellFormed :=
    Store.wellFormed_fresh.define Store.rooted_fresh.made "y" (Value.each_number 3)
  have made : Store.globalFrame < machine.store.size := by
    rw [show machine.store.size = Store.fresh.size from Store.size_define ..]
    exact Store.rooted_fresh.made
  refine ⟨binds, fresh, same, fun fuel => ?_⟩
  let place : Place := .item [] .here [.number 1, .number 2]
  have evaluated : ¬ place.IsParameterList := fun isList => nomatch isList.1
  exact same ▸ @evaluate_rename_parameter place form "x" "y" binds fresh (by decide) (by decide) evaluated machine
    wellFormed Store.globalFrame made fuel

end LexLisp
