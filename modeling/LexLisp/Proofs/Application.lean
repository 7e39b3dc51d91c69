/-
Module: LexLisp.Proofs.Application
Purpose: Applications and calls. An application evaluates its head, then its operands from left to right, and then
  calls what the head yielded. So, where the head yields something that can be applied, it is the call of that
  value with the values of the operands, at the point that evaluation has come to. A head that yields anything else
  ends the application before the first operand; the call of such a value, made directly, fails as well.
Main exports: InTurn, evaluateOperands_eq_ok_iff, evaluate_callable, evaluate_uncallable, apply_uncallable,
  application_agrees
-/
import LexLisp.Proofs.Execution

namespace LexLisp

/-!
### Expressions in turn
-/

/-- Expressions yield values from left to right in one frame, each where the one before left the machine. -/
inductive InTurn (fuel : Nat) (frame : FrameId) : List Expr → Machine → List Value → Machine → Prop where
  | done (machine : Machine) : InTurn fuel frame [] machine [] machine
  | next {expression : Expr} {expressions : List Expr} {value : Value} {values : List Value}
      {machine middle later : Machine} (first : evaluate fuel expression frame machine = .ok value middle)
      (rest : InTurn fuel frame expressions middle values later) :
      InTurn fuel frame (expression :: expressions) machine (value :: values) later

section Operands

variable {fuel : Nat} {frame : FrameId} {operands : List Expr} {machine later : Machine} {values : List Value}

theorem InTurn.evaluateOperands_eq (inTurn : InTurn fuel frame operands machine values later) :
    evaluateOperands (evaluate fuel) frame operands machine = .ok values later := by
  induction inTurn with
  | done machine => rfl
  | next first _ inductionHypothesis => exact evaluateOperands_cons first inductionHypothesis

theorem inTurn_of_evaluateOperands
    (evaluated : evaluateOperands (evaluate fuel) frame operands machine = .ok values later) :
    InTurn fuel frame operands machine values later := by
  induction operands generalizing machine values with
  | nil =>
      cases evaluated
      exact .done _
  | cons operand operands inductionHypothesis =>
      rw [evaluateOperands] at evaluated
      obtain ⟨value, middle, first, others⟩ := Eval.exists_of_bind_ok evaluated
      obtain ⟨rest, last, evaluatedRest, paired⟩ := Eval.exists_of_bind_ok others
      cases paired
      exact .next first (inductionHypothesis evaluatedRest)

/-- Operands are evaluated in turn. -/
theorem evaluateOperands_eq_ok_iff :
    evaluateOperands (evaluate fuel) frame operands machine = .ok values later ↔
      InTurn fuel frame operands machine values later :=
  ⟨inTurn_of_evaluateOperands, InTurn.evaluateOperands_eq⟩

end Operands

/-!
### Heads
-/

section Applications

variable {fuel : Nat} {head : Expr} {operands : List Expr} {frame : FrameId} {machine middle later : Machine}
  {callee : Value} {values : List Value}

/-- A symbol fails only where it is a name that a search misses. -/
theorem evaluateSymbol_error {missing : String → Fault} {name : String} {stop : Stop}
    (ended : evaluateSymbol missing name frame machine = .error stop later) :
    truth? name = none ∧ machine.store.lookup? frame name = none ∧ stop = .fault (missing name) ∧
      later = machine := by
  cases tag : truth? name with
  | some truth =>
      simp only [evaluateSymbol, tag] at ended
      cases ended
  | none =>
      simp only [evaluateSymbol, tag] at ended
      cases found : machine.store.lookup? frame name with
      | some value => cases (Eval.lookup_some found).symm.trans ended
      | none =>
          cases (Eval.lookup_none found).symm.trans ended
          exact ⟨rfl, rfl, rfl, rfl⟩

/-- What a missing name is called makes no difference where the name is found. -/
theorem evaluateSymbol_ok {missing : String → Fault} {name : String} {value : Value}
    (yielded : evaluateSymbol missing name frame machine = .ok value later) (other : String → Fault) :
    evaluateSymbol other name frame machine = .ok value later := by
  cases tag : truth? name with
  | some truth =>
      simp only [evaluateSymbol, tag] at yielded ⊢
      exact yielded
  | none =>
      simp only [evaluateSymbol, tag] at yielded ⊢
      cases found : machine.store.lookup? frame name with
      | some bound =>
          rw [Eval.lookup_some found] at yielded ⊢
          exact yielded
      | none =>
          rw [Eval.lookup_none found] at yielded
          cases yielded

/-- A head that yields a value as an expression yields it as a head. -/
theorem evaluateHead_of_evaluate (atHead : evaluate fuel head frame machine = .ok callee middle) :
    evaluateHead (evaluate fuel) head frame machine = .ok callee middle := by
  cases head with
  | number | list => exact atHead
  | symbol name =>
      cases fuel with
      | zero => cases atHead
      | succ fuel => exact evaluateSymbol_ok atHead .unknownOperator

theorem evaluateOperator_callable (atHead : evaluate fuel head frame machine = .ok callee middle)
    (callable : callee.isCallable = true) :
    evaluateOperator (evaluate fuel) head frame machine = .ok callee middle := by
  rw [evaluateOperator, Eval.bind_ok (evaluateHead_of_evaluate atHead), if_pos callable]
  rfl

/-- An application whose head and operands yield values is a call of the one with the others. -/
theorem evaluate_callable (plain : Keyword.ofHead? head = none)
    (atHead : evaluate fuel head frame machine = .ok callee middle) (callable : callee.isCallable = true)
    (inTurn : InTurn fuel frame operands middle values later) :
    evaluate (fuel + 1) (.list (head :: operands)) frame machine = apply fuel callee values head.text later := by
  rw [evaluate_application plain, Eval.bind_ok (evaluateOperator_callable atHead callable),
    Eval.bind_ok inTurn.evaluateOperands_eq]
  rfl

/-- An application whose head yields something else fails there and then: no operand is evaluated. -/
theorem evaluate_uncallable (plain : Keyword.ofHead? head = none)
    (atHead : evaluate fuel head frame machine = .ok callee middle) (uncallable : callee.isCallable = false)
    (operands : List Expr) :
    ∃ operator, evaluate (fuel + 1) (.list (head :: operands)) frame machine =
      .error (.fault (.unknownOperator operator)) middle := by
  have failed : evaluateOperator (evaluate fuel) head frame machine =
      .error (.fault (.unknownOperator head.text)) middle := by
    rw [evaluateOperator, Eval.bind_ok (evaluateHead_of_evaluate atHead), if_neg (by simp [uncallable])]
    rfl
  refine ⟨head.text, ?_⟩
  rw [evaluate_application plain]
  exact Eval.bind_error failed

/-- A call of something that cannot be applied is reported by its value. -/
theorem apply_uncallable (uncallable : callee.isCallable = false) (values : List Value) (operator : String) :
    apply fuel callee values operator machine = .error (.fault (.unknownOperator callee.text))
      { machine with log := machine.log.push (.apply operator values.length) } := by
  cases callee with
  | closure | primitive => cases uncallable
  | number | symbol | boolean | list => rfl

end Applications

/-- An application agrees with the call that it leads to. Where the head yields a value that can be applied and the
    operands yield values in turn, it ends as the call of these does, with the same machine. Where the head yields
    anything else, both are an unknown operator: the call, which is given evaluated operands and leaves the store as
    it is, and the application, which evaluates no operand and leaves what the head left. -/
theorem application_agrees {fuel : Nat} {head : Expr} {frame : FrameId} {machine middle : Machine} {callee : Value}
    (plain : Keyword.ofHead? head = none) (atHead : evaluate fuel head frame machine = .ok callee middle)
    (operands : List Expr) :
    (callee.isCallable = true → ∀ values later, InTurn fuel frame operands middle values later →
      evaluate (fuel + 1) (.list (head :: operands)) frame machine =
        apply fuel callee values head.text later) ∧
    (callee.isCallable = false →
      (∃ operator, evaluate (fuel + 1) (.list (head :: operands)) frame machine =
        .error (.fault (.unknownOperator operator)) middle) ∧
      ∀ values operator given, ∃ logged, apply fuel callee values operator given =
        .error (.fault (.unknownOperator callee.text)) logged ∧ logged.store = given.store) := by
  refine ⟨?_, ?_⟩
  · intro callable values later inTurn
    exact evaluate_callable plain atHead callable inTurn
  · intro uncallable
    refine ⟨evaluate_uncallable plain atHead uncallable operands, ?_⟩
    intro values operator given
    exact ⟨_, apply_uncallable uncallable values operator, rfl⟩

/-- The accessor `car` by its name, and the tag of truth, each with an operand that defines a name. -/
theorem application_agrees_define :
    let start : Machine := .ofStore .fresh
    let operand : Expr := .list [.symbol "define", .symbol "y", .symbol "#f"]
    let defined : Machine :=
      ⟨Store.fresh.define Store.globalFrame "y" (.boolean false), #[.define "y" (.boolean false)]⟩
    InTurn 2 Store.globalFrame [operand] start [.symbol "y"] defined ∧
      evaluate 3 (.list [.symbol "car", operand]) Store.globalFrame start =
        apply 2 (.primitive .car) [.symbol "y"] "car" defined ∧
      ∃ operator, evaluate 3 (.list [.symbol "#t", operand]) Store.globalFrame start =
        .error (.fault (.unknownOperator operator)) start := by
  intro start operand defined
  have inTurn : InTurn 2 Store.globalFrame [operand] start [.symbol "y"] defined :=
    .next (evaluate_define rfl) (.done _)
  have accessor : evaluate 2 (.symbol "car") Store.globalFrame start = .ok (.primitive .car) start := rfl
  have tag : evaluate 2 (.symbol "#t") Store.globalFrame start = .ok (.boolean true) start := rfl
  refine ⟨inTurn, ?_, ?_⟩
  · exact (application_agrees (by decide) accessor [operand]).1 rfl [.symbol "y"] defined inTurn
  · exact ((application_agrees (by decide) tag [operand]).2 rfl).1

/-- A tag at the head of an application: the operand would define a name, and a call with its value would leave that
    name bound, but the application has ended before. -/
theorem application_of_tag_evaluates_no_operand :
    let start : Machine := .ofStore .fresh
    let operand : Expr := .list [.symbol "define", .symbol "y", .symbol "#f"]
    ∃ (callee : Value) (values : List Value) (later : Machine),
      Keyword.ofHead? (.symbol "#t") = none ∧
      evaluate 2 (.symbol "#t") Store.globalFrame start = .ok callee start ∧
      InTurn 2 Store.globalFrame [operand] start values later ∧
      (Ending.store (evaluate 3 (.list [.symbol "#t", operand]) Store.globalFrame start)).bindsLocally
        Store.globalFrame "y" = false ∧
      (Ending.store (apply 2 callee values "#t" later)).bindsLocally Store.globalFrame "y" = true := by
  intro start operand
  refine ⟨.boolean true, [.symbol "y"], _, by decide, rfl, .next (evaluate_define rfl) (.done _), ?_, ?_⟩
  · decide
  · decide

end LexLisp
