/-
Module: LexLisp.Proofs.Refusal
Purpose: When a primitive refuses its operands. Their number is looked at first, and only if it is right their types,
  from left to right; a divisor and the list of an accessor come last. These are all the ways in which a call of a
  primitive fails.
Main exports: Operation.arity, Primitive.operation_arity, Primitive.call_miscounted, Primitive.Refuses,
  Primitive.call_eq_error_iff
-/
import LexLisp.Primitive.Call
import Mathlib

namespace LexLisp

/-- The operand counts that an operation is a function of. -/
def Operation.arity : Operation → Arity
  | .unary _ => .exactly 1
  | .binary _ => .exactly 2

namespace Primitive

/-!
### Counts
-/

/-- What a primitive computes is a function of as many operands as the primitive is listed with. -/
theorem operation_arity (primitive : Primitive) : primitive.operation.arity = primitive.arity := by
  cases primitive <;> rfl

theorem call_unary {primitive : Primitive} {run : Value → Except Fault Value}
    (shape : primitive.operation = .unary run) (operand : Value) : primitive.call [operand] = run operand := by
  simp only [call, shape]

theorem call_binary {primitive : Primitive} {run : Value → Value → Except Fault Value}
    (shape : primitive.operation = .binary run) (first second : Value) :
    primitive.call [first, second] = run first second := by
  simp only [call, shape]

/-- Another number of operands is reported, whatever the operands are. -/
theorem call_miscounted {primitive : Primitive} {operands : List Value}
    (miscounted : primitive.arity.accepts operands.length = false) :
    primitive.call operands = .error (.arity primitive.name primitive.arity operands.length) := by
  rw [← operation_arity] at miscounted
  unfold call
  split
  · next run operand shape =>
      rw [shape] at miscounted
      cases miscounted
  · next run first second shape =>
      rw [shape] at miscounted
      cases miscounted
  · rfl

/-!
### Classes of primitives
-/

/-- The primitives that compute with numbers. -/
def isNumeric : Primitive → Bool
  | .cons => false
  | .car => false
  | .cdr => false
  | _ => true

/-- The primitives that take a list apart. -/
def isAccessor : Primitive → Bool
  | .car => true
  | .cdr => true
  | _ => false

/-- Both zeros are equal to zero, and no other number is. -/
theorem beq_zero_iff (number : Float) : (number == 0.0) = true ↔ number = 0 ∨ number = -0 := by
  rw [Float.beq_iff_ne_nan_and_eq]
  constructor
  · rintro ⟨_, _, same | ⟨positive, _⟩ | ⟨negative, _⟩⟩
    · exact .inl same
    · exact .inl positive
    · exact .inr negative
  · rintro (rfl | rfl) <;> decide

theorem quotient_eq_error_iff {left right : Float} {fault : Fault} :
    quotient left right = .error fault ↔ (right = 0 ∨ right = -0) ∧ fault = .divisionByZero := by
  rw [quotient, ← beq_zero_iff]
  split
  · next zero => simp [zero, eq_comm]
  · next nonzero => simp [nonzero]

/-- A numeric primitive computes with two numbers, and of these it refuses at most a divisor. -/
theorem exists_onNumbers {primitive : Primitive} (numeric : primitive.isNumeric = true) :
    ∃ compute, primitive.operation = primitive.onNumbers compute ∧
      ∀ left right fault, compute left right = .error fault ↔
        primitive = .divide ∧ (right = 0 ∨ right = -0) ∧ fault = .divisionByZero := by
  cases primitive with
  | cons | car | cdr => cases numeric
  | divide => exact ⟨quotient, rfl, fun left right fault => by simp [quotient_eq_error_iff]⟩
  | add | subtract | multiply | equal | less | greater | lessOrEqual | greaterOrEqual =>
      exact ⟨_, rfl, fun left right fault => by simp⟩

theorem exists_access {primitive : Primitive} (accessor : primitive.isAccessor = true) :
    ∃ select, primitive.operation = primitive.access select := by
  cases primitive with
  | car | cdr => exact ⟨_, rfl⟩
  | add | subtract | multiply | divide | equal | less | greater | lessOrEqual | greaterOrEqual | cons =>
      cases accessor

/-- Every primitive but `cons` is of one of the two classes. -/
theorem class_cases (primitive : Primitive) :
    primitive.isNumeric = true ∨ primitive.isAccessor = true ∨ primitive = .cons := by
  cases primitive <;> decide

theorem arity_numeric {primitive : Primitive} (numeric : primitive.isNumeric = true) :
    primitive.arity = .exactly 2 := by
  obtain ⟨compute, shape, _⟩ := exists_onNumbers numeric
  rw [← operation_arity, shape]
  rfl

theorem arity_accessor {primitive : Primitive} (accessor : primitive.isAccessor = true) :
    primitive.arity = .exactly 1 := by
  obtain ⟨select, shape⟩ := exists_access accessor
  rw [← operation_arity, shape]
  rfl

/-!
### Calls with as many operands as are taken
-/

theorem eq_number_of_number? {operand : Value} {value : Float} (isNumber : operand.number? = some value) :
    operand = .number value := by
  cases operand with
  | number => exact congrArg Value.number (Option.some.inj isNumber)
  | symbol | boolean | list | closure | primitive => cases isNumber

theorem numberOperand_of_number? {primitive : Primitive} {operand : Value} (other : operand.number? = none) :
    primitive.numberOperand operand = .error (.type primitive.name .aNumber operand.described) := by
  cases operand with
  | number value => cases other
  | symbol | boolean | list | closure | primitive => rfl

/-- The leftmost operand that is no number. -/
def leftmostOther? (operands : List Value) : Option Value :=
  operands.find? fun operand => operand.number?.isNone

/-- A numeric primitive reports the leftmost operand that is no number, or both operands are numbers. -/
theorem call_numeric {primitive : Primitive} (numeric : primitive.isNumeric = true) (first second : Value) :
    (∃ operand, leftmostOther? [first, second] = some operand ∧
      primitive.call [first, second] = .error (.type primitive.name .aNumber operand.described)) ∨
    ∃ left right, first = .number left ∧ second = .number right := by
  obtain ⟨compute, shape, _⟩ := exists_onNumbers numeric
  rw [call_binary shape]
  cases atFirst : first.number? with
  | none =>
      refine .inl ⟨first, by simp [leftmostOther?, atFirst], ?_⟩
      rw [numberOperand_of_number? atFirst]
      rfl
  | some left =>
      obtain rfl := eq_number_of_number? atFirst
      cases atSecond : second.number? with
      | none =>
          refine .inl ⟨second, by simp [leftmostOther?, atFirst, atSecond], ?_⟩
          rw [numberOperand_of_number? atSecond]
          rfl
      | some right => exact .inr ⟨left, right, rfl, eq_number_of_number? atSecond⟩

/-- Of two numbers only a divisor is refused. -/
theorem call_numbers_eq_error_iff {primitive : Primitive} (numeric : primitive.isNumeric = true) {left right : Float}
    {fault : Fault} :
    primitive.call [.number left, .number right] = .error fault ↔
      primitive = .divide ∧ (right = 0 ∨ right = -0) ∧ fault = .divisionByZero := by
  obtain ⟨compute, shape, failing⟩ := exists_onNumbers numeric
  rw [call_binary shape]
  exact failing left right fault

/-- An accessor refuses what is no list, and of the lists the empty one. -/
theorem call_accessor_eq_error_iff {primitive : Primitive} (accessor : primitive.isAccessor = true) {operand : Value}
    {fault : Fault} :
    primitive.call [operand] = .error fault ↔
      (operand.items? = none ∧ fault = .type primitive.name .aList operand.described) ∨
      (operand = .list [] ∧ fault = .emptyListAccess primitive) := by
  obtain ⟨select, shape⟩ := exists_access accessor
  rw [call_unary shape]
  cases operand with
  | list items =>
      cases items with
      | nil => simp [listOperand, Bind.bind, Except.bind, Value.items?, eq_comm]
      | cons first rest => simp [listOperand, Bind.bind, Except.bind, Value.items?]
  | number | symbol | boolean | closure | primitive =>
      simp [listOperand, Bind.bind, Except.bind, Value.items?, eq_comm]

/-!
### Refusals
-/

/-- Why a primitive refuses operands. -/
inductive Refuses : Primitive → List Value → Fault → Prop where
  /-- There are more or fewer than it takes. -/
  | count {primitive : Primitive} {operands : List Value}
      (miscounted : primitive.arity.accepts operands.length = false) :
      Refuses primitive operands (.arity primitive.name primitive.arity operands.length)
  /-- It computes with numbers, and this operand is the leftmost that is none. -/
  | notNumber {primitive : Primitive} {operands : List Value} {operand : Value}
      (numeric : primitive.isNumeric = true) (counted : primitive.arity.accepts operands.length = true)
      (leftmost : leftmostOther? operands = some operand) :
      Refuses primitive operands (.type primitive.name .aNumber operand.described)
  | zeroDivisor {left right : Float} (zero : right = 0 ∨ right = -0) :
      Refuses .divide [.number left, .number right] .divisionByZero
  | notList {primitive : Primitive} {operand : Value} (accessor : primitive.isAccessor = true)
      (other : operand.items? = none) :
      Refuses primitive [operand] (.type primitive.name .aList operand.described)
  | emptyList {primitive : Primitive} (accessor : primitive.isAccessor = true) :
      Refuses primitive [.list []] (.emptyListAccess primitive)

theorem Refuses.call_eq {primitive : Primitive} {operands : List Value} {fault : Fault}
    (refuses : primitive.Refuses operands fault) : primitive.call operands = .error fault := by
  cases refuses with
  | count miscounted => exact call_miscounted miscounted
  | notNumber numeric counted leftmost =>
      rw [arity_numeric numeric] at counted
      obtain ⟨first, second, rfl⟩ := List.length_eq_two.mp (eq_of_beq counted)
      rcases call_numeric numeric first second with ⟨operand, found, failed⟩ | ⟨left, right, rfl, rfl⟩
      · cases found.symm.trans leftmost
        exact failed
      · cases leftmost
  | zeroDivisor zero => exact (call_numbers_eq_error_iff rfl).mpr ⟨rfl, zero, rfl⟩
  | notList accessor other => exact (call_accessor_eq_error_iff accessor).mpr (.inl ⟨other, rfl⟩)
  | emptyList accessor => exact (call_accessor_eq_error_iff accessor).mpr (.inr ⟨rfl, rfl⟩)

theorem refuses_of_call {primitive : Primitive} {operands : List Value} {fault : Fault}
    (failed : primitive.call operands = .error fault) : primitive.Refuses operands fault := by
  cases counted : primitive.arity.accepts operands.length with
  | false =>
      cases (call_miscounted counted).symm.trans failed
      exact .count counted
  | true =>
      rcases class_cases primitive with numeric | accessor | rfl
      · have two := counted
        rw [arity_numeric numeric] at two
        obtain ⟨first, second, rfl⟩ := List.length_eq_two.mp (eq_of_beq two)
        rcases call_numeric numeric first second with ⟨operand, leftmost, reported⟩ | ⟨left, right, rfl, rfl⟩
        · cases reported.symm.trans failed
          exact .notNumber numeric counted leftmost
        · obtain ⟨rfl, zero, rfl⟩ := (call_numbers_eq_error_iff numeric).mp failed
          exact .zeroDivisor zero
      · rw [arity_accessor accessor] at counted
        obtain ⟨operand, rfl⟩ := List.length_eq_one_iff.mp (eq_of_beq counted)
        rcases (call_accessor_eq_error_iff accessor).mp failed with ⟨other, rfl⟩ | ⟨rfl, rfl⟩
        · exact .notList accessor other
        · exact .emptyList accessor
      · obtain ⟨first, second, rfl⟩ := List.length_eq_two.mp (eq_of_beq counted)
        cases failed

/-- A call of a primitive fails exactly where the primitive refuses the operands, and with that fault. -/
theorem call_eq_error_iff {primitive : Primitive} {operands : List Value} {fault : Fault} :
    primitive.call operands = .error fault ↔ primitive.Refuses operands fault :=
  ⟨refuses_of_call, Refuses.call_eq⟩

end Primitive

end LexLisp
