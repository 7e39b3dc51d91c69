/-
Module: LexLisp.Proofs.Kinship
Purpose: Values that agree in all but their names. Numbers, truth values and primitives are the same, lists have
  the same shape, and closures are related as the comparison says; symbols need agree only where texts are
  compared. No primitive tells such values apart, since none looks at a symbol or into a procedure.
Main exports: Kinship, Akin, AkinItems, resemblance, Expr.shape, akin_ofDatum, Kinship.Faults, Kinship.Results,
  Primitive.call_akin
-/
import LexLisp.Proofs.Closures

namespace LexLisp

/-- How two runs are compared: whether their texts must agree, and which procedures count as one. Where texts must
    agree, so do the parameters, which a procedure shows. -/
structure Kinship where
  literal : Prop
  procedures : Closure → Closure → Prop
  shown : ∀ {left right}, procedures left right → literal → left.parameters = right.parameters

mutual

/-- The same data but for symbols, and at the places of closures procedures that count as one. -/
inductive Akin (kinship : Kinship) : Value → Value → Prop where
  | number (value : Float) : Akin kinship (.number value) (.number value)
  | symbol {name name' : String} (same : kinship.literal → name = name') :
      Akin kinship (.symbol name) (.symbol name')
  | boolean (value : Bool) : Akin kinship (.boolean value) (.boolean value)
  | list {left right : List Value} (items : AkinItems kinship left right) :
      Akin kinship (.list left) (.list right)
  | closure {left right : Closure} (related : kinship.procedures left right) :
      Akin kinship (.closure left) (.closure right)
  | primitive (operation : Primitive) : Akin kinship (.primitive operation) (.primitive operation)

/-- Kinship of lists, element by element. -/
inductive AkinItems (kinship : Kinship) : List Value → List Value → Prop where
  | nil : AkinItems kinship [] []
  | cons {left right : Value} {lefts rights : List Value} (first : Akin kinship left right)
      (rest : AkinItems kinship lefts rights) : AkinItems kinship (left :: lefts) (right :: rights)

end

/-- The loosest comparison: any symbols, and any procedures that take as many operands. -/
def resemblance : Kinship where
  literal := False
  procedures left right := left.arity = right.arity
  shown _ literal := literal.elim

/-- A kinship that asks for no more than another. -/
structure Kinship.Refines (strict lax : Kinship) : Prop where
  literal : lax.literal → strict.literal
  procedures : ∀ left right, strict.procedures left right → lax.procedures left right

mutual

/-- What is akin stays akin where less is asked. -/
theorem Akin.refine {strict lax : Kinship} (refines : strict.Refines lax) {left right : Value}
    (akin : Akin strict left right) : Akin lax left right := by
  cases akin with
  | number value => exact .number value
  | symbol same => exact .symbol fun literal => same (refines.literal literal)
  | boolean value => exact .boolean value
  | list items => exact .list (items.refine refines)
  | closure related => exact .closure (refines.procedures _ _ related)
  | primitive operation => exact .primitive operation

/-- So it is with lists, element by element. -/
theorem AkinItems.refine {strict lax : Kinship} (refines : strict.Refines lax) {lefts rights : List Value}
    (akin : AkinItems strict lefts rights) : AkinItems lax lefts rights := by
  cases akin with
  | nil => exact .nil
  | cons first rest => exact .cons (first.refine refines) (rest.refine refines)

end

mutual

/-- A value is akin to itself if its procedures count as one with themselves. -/
theorem akin_self {kinship : Kinship} : ∀ value : Value,
    (value.Each fun procedure => kinship.procedures procedure procedure) → Akin kinship value value
  | .number value, _ => .number value
  | .symbol _, _ => .symbol fun _ => rfl
  | .boolean value, _ => .boolean value
  | .list items, each => .list (akinItems_self items ((Value.each_list items).mp each))
  | .closure procedure, each => .closure (each procedure .whole)
  | .primitive operation, _ => .primitive operation

theorem akinItems_self {kinship : Kinship} : ∀ values : List Value,
    (∀ value ∈ values, value.Each fun procedure => kinship.procedures procedure procedure) →
      AkinItems kinship values values
  | [], _ => .nil
  | value :: values, each =>
      have parts := List.forall_mem_cons.mp each
      .cons (akin_self value parts.1) (akinItems_self values parts.2)

end

section Views

variable {kinship : Kinship}

mutual

/-- Where texts must agree, akin values are displayed alike. -/
theorem Akin.text_eq (literal : kinship.literal) {left right : Value} (akin : Akin kinship left right) :
    left.text = right.text := by
  cases akin with
  | number | boolean | primitive => rfl
  | symbol same => exact same literal
  | list items => simp only [Value.text, items.texts_eq literal]
  | closure related => simp only [Value.text, kinship.shown related literal]

/-- So are the elements of akin lists, one after another. -/
theorem AkinItems.texts_eq (literal : kinship.literal) {lefts rights : List Value}
    (akin : AkinItems kinship lefts rights) : Value.texts lefts = Value.texts rights := by
  cases akin with
  | nil => rfl
  | cons first rest => simp only [Value.texts, first.text_eq literal, rest.texts_eq literal]

end

/-- Where texts must agree, so does what a fault says of a value. -/
theorem Akin.described_eq (literal : kinship.literal) {left right : Value}
    (akin : Akin kinship left right) : left.described = right.described := by
  have kinds : left.kind = right.kind := by cases akin <;> rfl
  simp only [Value.described, kinds, akin.text_eq literal]

/-- Akin values can both be called, or neither can. -/
theorem Akin.isCallable_eq {left right : Value} (akin : Akin kinship left right) :
    left.isCallable = right.isCallable := by
  cases akin <;> rfl

/-- Akin lists are of one length. -/
theorem AkinItems.length_eq {lefts rights : List Value} (akin : AkinItems kinship lefts rights) :
    lefts.length = rights.length := by
  induction lefts generalizing rights with
  | nil =>
      cases akin
      rfl
  | cons left lefts inductionHypothesis =>
      cases akin with
      | cons first rest => simp only [List.length_cons, inductionHypothesis rest]

end Views

/-!
### Data
-/

namespace Expr

mutual

/-- A tree without the texts of its symbols. The two tags stay, since they are no symbols as data. -/
def shape : Expr → Expr
  | .number value => .number value
  | .symbol name => .symbol (((truth? name).map Value.tag).getD "")
  | .list items => .list (shapes items)

/-- The shapes of some trees. -/
def shapes : List Expr → List Expr
  | [] => []
  | item :: items => item.shape :: shapes items

end

/-- A shape still tells the two tags from each other and from other symbols. -/
theorem truth?_of_shape {name name' : String} (same : (symbol name).shape = (symbol name').shape) :
    truth? name = truth? name' := by
  simp only [shape, symbol.injEq] at same
  generalize truth? name = truth at same
  generalize truth? name' = truth' at same
  revert same
  rcases truth with _ | _ | _ <;> rcases truth' with _ | _ | _ <;> decide

end Expr

mutual

/-- Trees of one shape are akin as data. -/
theorem akin_ofDatum (kinship : Kinship) : ∀ {tree tree' : Expr}, tree.shape = tree'.shape →
    (kinship.literal → tree = tree') → Akin kinship (.ofDatum tree) (.ofDatum tree')
  | .number value, .number value', alike, _ => by
      cases alike
      exact .number value
  | .symbol name, .symbol name', alike, same => by
      simp only [Value.ofDatum, Expr.truth?_of_shape alike]
      cases truth? name' with
      | some value => exact .boolean value
      | none => exact .symbol fun literal => Expr.symbol.inj (same literal)
  | .list items, .list items', alike, same => by
      simp only [Expr.shape, Expr.list.injEq] at alike
      exact .list (akinItems_ofData kinship alike fun literal => Expr.list.inj (same literal))
  | .number _, .symbol _, alike, _ | .number _, .list _, alike, _ | .symbol _, .number _, alike, _
  | .symbol _, .list _, alike, _ | .list _, .number _, alike, _ | .list _, .symbol _, alike, _ => by
      simp only [Expr.shape, reduceCtorEq] at alike

/-- So are rows of trees, one by one. -/
theorem akinItems_ofData (kinship : Kinship) : ∀ {items items' : List Expr},
    Expr.shapes items = Expr.shapes items' → (kinship.literal → items = items') →
      AkinItems kinship (Value.ofData items) (Value.ofData items')
  | [], [], _, _ => .nil
  | item :: items, item' :: items', alike, same => by
      simp only [Expr.shapes, List.cons.injEq] at alike
      have parts := fun literal => List.cons.inj (same literal)
      exact .cons (akin_ofDatum kinship alike.1 fun literal => (parts literal).1)
        (akinItems_ofData kinship alike.2 fun literal => (parts literal).2)
  | [], _ :: _, alike, _ | _ :: _, [], alike, _ => by simp [Expr.shapes] at alike

end

/-!
### Results that may be faults
-/

namespace Kinship

/-- Faults of one class, and the same fault where texts are compared. -/
def Faults (kinship : Kinship) (fault fault' : Fault) : Prop :=
  fault.kind = fault'.kind ∧ (kinship.literal → fault = fault')

/-- Both fail, or both yield, and what they yield is related. -/
def Results {α β : Type} (kinship : Kinship) (good : α → β → Prop) : Except Fault α → Except Fault β → Prop
  | .ok left, .ok right => good left right
  | .error fault, .error fault' => kinship.Faults fault fault'
  | _, _ => False

variable {kinship : Kinship}

theorem Faults.refl (fault : Fault) : kinship.Faults fault fault :=
  ⟨rfl, fun _ => rfl⟩

/-- Results that agree are of one kind. -/
theorem Results.cases {α β : Type} {good : α → β → Prop} {result : Except Fault α} {result' : Except Fault β}
    (results : kinship.Results good result result') :
    (∃ left right, result = .ok left ∧ result' = .ok right ∧ good left right) ∨
      ∃ fault fault', result = .error fault ∧ result' = .error fault' ∧ kinship.Faults fault fault' := by
  cases result with
  | ok left =>
      cases result' with
      | ok right => exact Or.inl ⟨left, right, rfl, rfl, results⟩
      | error fault' => exact results.elim
  | error fault =>
      cases result' with
      | ok right => exact results.elim
      | error fault' => exact Or.inr ⟨fault, fault', rfl, rfl, results⟩

/-- What is yielded on both sides may be related more loosely. -/
theorem Results.mono {α β : Type} {small large : α → β → Prop}
    (weaker : ∀ left right, small left right → large left right) {result : Except Fault α}
    {result' : Except Fault β} (results : kinship.Results small result result') :
    kinship.Results large result result' := by
  rcases results.cases with ⟨left, right, rfl, rfl, good⟩ | ⟨fault, fault', rfl, rfl, faults⟩
  · exact weaker left right good
  · exact faults

/-- Two computations in sequence: if the first parts agree, and the second ones do on whatever related results they
    are handed, the wholes agree. -/
theorem Results.bind {α β α' β' : Type} {middle : α → β → Prop} {good : α' → β' → Prop}
    {result : Except Fault α} {result' : Except Fault β} {next : α → Except Fault α'}
    {next' : β → Except Fault β'} (early : kinship.Results middle result result')
    (late : ∀ left right, middle left right → kinship.Results good (next left) (next' right)) :
    kinship.Results good (result >>= next) (result' >>= next') := by
  rcases early.cases with ⟨left, right, rfl, rfl, related⟩ | ⟨fault, fault', rfl, rfl, faults⟩
  · exact late left right related
  · exact faults

end Kinship

/-!
### Primitives
-/

/-- An operation yields related results on akin operands. -/
def Operation.Respects (kinship : Kinship) : Operation → Prop
  | .unary run => ∀ left right, Akin kinship left right →
      kinship.Results (Akin kinship) (run left) (run right)
  | .binary run => ∀ left right left' right', Akin kinship left right → Akin kinship left' right' →
      kinship.Results (Akin kinship) (run left left') (run right right')

namespace Primitive

variable {kinship : Kinship}

/-- Akin operands are the same number or no numbers at all. -/
theorem numberOperand_akin (primitive : Primitive) {left right : Value} (akin : Akin kinship left right) :
    kinship.Results (· = ·) (primitive.numberOperand left) (primitive.numberOperand right) := by
  have described := fun literal => akin.described_eq literal
  cases akin with
  | number value => exact rfl
  | symbol | boolean | list | closure | primitive =>
      exact ⟨rfl, fun literal => by rw [described literal]⟩

/-- Akin operands are lists of akin elements or no lists at all. -/
theorem listOperand_akin (primitive : Primitive) {left right : Value} (akin : Akin kinship left right) :
    kinship.Results (AkinItems kinship) (primitive.listOperand left) (primitive.listOperand right) := by
  have described := fun literal => akin.described_eq literal
  cases akin with
  | list items => exact items
  | number | symbol | boolean | closure | primitive =>
      exact ⟨rfl, fun literal => by rw [described literal]⟩

/-- An operation on numbers sees the same numbers on both sides. -/
theorem onNumbers_respects (primitive : Primitive) {compute : Float → Float → Except Fault Value}
    (data : ∀ left right, kinship.Results (Akin kinship) (compute left right) (compute left right)) :
    (primitive.onNumbers compute).Respects kinship := by
  intro left right left' right' akin akin'
  apply (primitive.numberOperand_akin akin).bind
  rintro first _ rfl
  apply (primitive.numberOperand_akin akin').bind
  rintro second _ rfl
  exact data first second

/-- An access to a list finds both lists empty, or selects from akin parts. -/
theorem access_respects (primitive : Primitive) {select : Value → List Value → Value}
    (selected : ∀ {left right lefts rights}, Akin kinship left right →
      AkinItems kinship lefts rights → Akin kinship (select left lefts) (select right rights)) :
    (primitive.access select).Respects kinship := by
  intro left right akin
  apply (primitive.listOperand_akin akin).bind
  intro items items' akinItems
  cases akinItems with
  | nil => exact Kinship.Faults.refl _
  | cons first rest => exact selected first rest

theorem prepend_akin {left right left' right' : Value} (akin : Akin kinship left right)
    (akin' : Akin kinship left' right') : Akin kinship (prepend left left') (prepend right right') := by
  have pair : Akin kinship (.list [left, left']) (.list [right, right']) :=
    .list (.cons akin (.cons akin' .nil))
  cases akin' with
  | list items => exact .list (.cons akin items)
  | number | symbol | boolean | closure | primitive => exact pair

/-- Each primitive respects kinship, group by group. -/
theorem operation_respects (primitive : Primitive) : primitive.operation.Respects kinship := by
  cases primitive with
  | add | subtract | multiply => exact onNumbers_respects _ fun _ _ => .number _
  | equal | less | greater | lessOrEqual | greaterOrEqual =>
      exact onNumbers_respects _ fun _ _ => .boolean _
  | divide =>
      apply onNumbers_respects
      intro left right
      unfold quotient
      split
      · exact Kinship.Faults.refl _
      · exact .number _
  | cons => exact fun left right left' right' akin akin' => prepend_akin akin akin'
  | car => exact access_respects _ fun first _ => first
  | cdr => exact access_respects _ fun _ rest => .list rest

/-- A primitive does not tell akin operands apart. -/
theorem call_akin (primitive : Primitive) {lefts rights : List Value}
    (akin : AkinItems kinship lefts rights) :
    kinship.Results (Akin kinship) (primitive.call lefts) (primitive.call rights) := by
  have respects : primitive.operation.Respects kinship := operation_respects primitive
  have counts := akin.length_eq
  unfold call
  generalize primitive.operation = operation at respects
  rcases operation with run | run
  · rcases akin with _ | ⟨first, _ | ⟨second, more⟩⟩
    · exact Kinship.Faults.refl _
    · exact respects _ _ first
    · simp only [counts]
      exact Kinship.Faults.refl _
  · rcases akin with _ | ⟨first, _ | ⟨second, _ | ⟨third, more⟩⟩⟩
    · exact Kinship.Faults.refl _
    · exact Kinship.Faults.refl _
    · exact respects _ _ _ _ first second
    · simp only [counts]
      exact Kinship.Faults.refl _

end Primitive

end LexLisp
