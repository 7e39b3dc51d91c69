/-
Module: LexLisp.Proofs.Closures
Purpose: The closures inside a value, at any depth of lists. Quoted data holds none, and a primitive passes on
  only those of its operands: primitives take lists apart and put them together, and make no procedures.
Main exports: Value.Within, Value.Each, Value.each_ofDatum, PassedOn, Primitive.call_passedOn
-/
import LexLisp.Primitive.Call

namespace LexLisp

namespace Value

/-- A value is part of another: it is that value, or part of an element of that list. -/
inductive Within (part : Value) : Value → Prop where
  | whole : Within part part
  | inside {items : List Value} {item : Value} (member : item ∈ items) (deeper : Within part item) :
      Within part (.list items)

/-- Every closure in a value is of a kind. -/
def Each (kind : Closure → Prop) (value : Value) : Prop :=
  ∀ closure, Within (.closure closure) value → kind closure

variable {kind : Closure → Prop}

/-- What holds of every closure in a value may be weakened. -/
theorem Each.mono {kind' : Closure → Prop} (weaker : ∀ closure, kind closure → kind' closure)
    {value : Value} (each : value.Each kind) : value.Each kind' :=
  fun closure within => weaker closure (each closure within)

@[simp] theorem each_number (value : Float) : (Value.number value).Each kind := by
  intro closure within
  cases within

@[simp] theorem each_symbol (name : String) : (Value.symbol name).Each kind := by
  intro closure within
  cases within

@[simp] theorem each_boolean (value : Bool) : (Value.boolean value).Each kind := by
  intro closure within
  cases within

@[simp] theorem each_primitive (operation : Primitive) : (Value.primitive operation).Each kind := by
  intro closure within
  cases within

/-- A closure is the only closure in itself: its body is an expression and holds no values. -/
@[simp] theorem each_closure (procedure : Closure) :
    (Value.closure procedure).Each kind ↔ kind procedure := by
  constructor
  · intro each
    exact each procedure .whole
  · intro known closure within
    cases within
    exact known

/-- The closures in a list are those in its elements. -/
@[simp] theorem each_list (items : List Value) :
    (Value.list items).Each kind ↔ ∀ item ∈ items, item.Each kind := by
  constructor
  · intro each item member closure within
    exact each closure (.inside member within)
  · intro all closure within
    cases within with
    | inside member deeper => exact all _ member closure deeper

mutual

/-- Data from a tree holds no closures. -/
theorem each_ofDatum : ∀ expression : Expr, (ofDatum expression).Each kind
  | .number value => by simp [ofDatum]
  | .symbol name => by
      unfold ofDatum
      split <;> simp
  | .list items => by
      unfold ofDatum
      exact (each_list _).mpr (each_ofData items)

/-- Nor do the elements of a list of data. -/
theorem each_ofData : ∀ (expressions : List Expr), ∀ item ∈ ofData expressions, item.Each kind
  | [], item, member => by simp [ofData] at member
  | first :: rest, item, member => by
      unfold ofData at member
      rcases List.mem_cons.mp member with same | later
      · exact same ▸ each_ofDatum first
      · exact each_ofData rest item later

end

end Value

/-- A result that holds only closures of a kind, or a failure that is not about a missing name. -/
def PassedOn (kind : Closure → Prop) : Except Fault Value → Prop
  | .ok result => result.Each kind
  | .error fault => ∀ name, fault ≠ .unboundVariable name

/-- An operation makes no closures of its own. -/
def Operation.PassesOn (kind : Closure → Prop) : Operation → Prop
  | .unary run => ∀ operand, operand.Each kind → PassedOn kind (run operand)
  | .binary run => ∀ first second, first.Each kind → second.Each kind → PassedOn kind (run first second)

namespace Primitive

variable {kind : Closure → Prop}

/-- An operand that is no number is a fault of its type, and not one of a missing name. -/
theorem numberOperand_error {primitive : Primitive} {operand : Value} {fault : Fault}
    (failed : primitive.numberOperand operand = .error fault) (name : String) :
    fault ≠ .unboundVariable name := by
  cases operand with
  | number => cases failed
  | symbol | boolean | list | closure | primitive =>
      cases failed
      exact fun same => nomatch same

/-- An operation on two numbers passes on whatever its computation yields; its operands hold no closures once they are
    known to be numbers. -/
theorem onNumbers_passesOn (primitive : Primitive) {compute : Float → Float → Except Fault Value}
    (data : ∀ left right, PassedOn kind (compute left right)) :
    (primitive.onNumbers compute).PassesOn kind := by
  intro first second _ _
  simp only [Bind.bind, Except.bind]
  cases atFirst : primitive.numberOperand first with
  | error fault => exact numberOperand_error atFirst
  | ok left =>
      cases atSecond : primitive.numberOperand second with
      | error fault => exact numberOperand_error atSecond
      | ok right => exact data left right

/-- Arithmetic yields numbers. -/
theorem arithmetic_passesOn (primitive : Primitive) (compute : Float → Float → Float) :
    (primitive.arithmetic compute).PassesOn kind := by
  apply onNumbers_passesOn
  intro left right
  exact Value.each_number _

/-- Comparisons yield truth values. -/
theorem comparison_passesOn (primitive : Primitive) (holds : Float → Float → Bool) :
    (primitive.comparison holds).PassesOn kind := by
  apply onNumbers_passesOn
  intro left right
  exact Value.each_boolean _

theorem quotient_passedOn (left right : Float) : PassedOn kind (quotient left right) := by
  unfold quotient
  split
  · exact fun name same => nomatch same
  · exact Value.each_number _

/-- An access to a list passes on closures if what it selects from one that is not empty does. -/
theorem access_passesOn (primitive : Primitive) {select : Value → List Value → Value}
    (selected : ∀ first rest, (Value.list (first :: rest)).Each kind → (select first rest).Each kind) :
    (primitive.access select).PassesOn kind := by
  intro operand each
  simp only [Bind.bind, Except.bind, listOperand]
  cases operand with
  | list items =>
      cases items with
      | nil => exact fun name same => nomatch same
      | cons first rest => exact selected first rest each
  | number | symbol | boolean | closure | primitive => exact fun name same => nomatch same

/-- To prepend makes a list of both operands, whatever the second is. -/
theorem each_prepend {first second : Value} (eachFirst : first.Each kind)
    (eachSecond : second.Each kind) : (prepend first second).Each kind := by
  cases second with
  | list items => simpa [prepend, eachFirst] using eachSecond
  | closure procedure => simpa [prepend, eachFirst] using eachSecond
  | number | symbol | boolean | primitive => simp [prepend, eachFirst]

/-- Each primitive passes on closures of its operands and makes none, group by group. -/
theorem operation_passesOn (primitive : Primitive) : primitive.operation.PassesOn kind := by
  cases primitive with
  | add | subtract | multiply => exact arithmetic_passesOn _ _
  | equal | less | greater | lessOrEqual | greaterOrEqual => exact comparison_passesOn _ _
  | divide => exact onNumbers_passesOn _ quotient_passedOn
  | cons => exact fun first second eachFirst eachSecond => each_prepend eachFirst eachSecond
  | car =>
      apply access_passesOn
      intro first rest each
      simp only [Value.each_list, List.forall_mem_cons] at each
      exact each.1
  | cdr =>
      apply access_passesOn
      intro first rest each
      simp only [Value.each_list, List.forall_mem_cons] at each ⊢
      exact each.2

/-- A call of a primitive yields only closures that its operands hold. -/
theorem call_passedOn (primitive : Primitive) {operands : List Value}
    (each : ∀ operand ∈ operands, operand.Each kind) : PassedOn kind (primitive.call operands) := by
  have passes : primitive.operation.PassesOn kind := operation_passesOn primitive
  unfold call
  split
  · next run operand shape =>
      rw [shape] at passes
      exact passes operand (each operand (by simp))
  · next run first second shape =>
      rw [shape] at passes
      exact passes first second (each first (by simp)) (each second (by simp))
  · exact fun name same => nomatch same

end Primitive

end LexLisp
