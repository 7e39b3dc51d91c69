/-
Module: LexLisp.Proofs.Positions
Purpose: Operands taken by their positions. The forms and the primitives of `LexLisp.Evaluator` are written by the shape
  of their operand lists. Here they are written once more for a machine that knows nothing of shapes: it compares the
  number of operands with the listed arity and then takes the first, the second and the third operand by position,
  which is a lapse where there is none. Both evaluators are one, so no evaluation lapses; what lists the arities and
  what takes the operands agree everywhere.
Main exports: evaluateForm_miscounted, apply_miscounted, Lapse, Positional, Positional.operandAt,
  Positional.callPrimitive, Positional.evaluateForm, Positional.evaluate, Positional.evaluate_eq,
  operands_taken_in_range
-/
import LexLisp.Proofs.Parameters
import LexLisp.Proofs.Refusal
import LexLisp.Proofs.Variant

namespace LexLisp

/-!
### Another number of operands
-/

/-- A special form with another number of operands is a fault, whatever would evaluate them. -/
theorem evaluateForm_miscounted {keyword : Keyword} {operands : List Expr}
    (miscounted : keyword.arity.accepts operands.length = false) (inner : Evaluator) (frame : FrameId) :
    evaluateForm inner keyword operands frame =
      Eval.raise (.arity keyword.name keyword.arity operands.length) := by
  rw [evaluateForm_eq, Form.of_miscounted miscounted]
  rfl

/-- How many operands a value takes when it is called. -/
def Value.arity? : Value → Option Arity
  | .closure procedure => some procedure.arity
  | .primitive operation => some operation.arity
  | _ => none

/-- A call with another number of operands is a fault as well, and leaves the store as it is. -/
theorem apply_miscounted {callee : Value} {arity : Arity} {operands : List Value} (listed : callee.arity? = some arity)
    (miscounted : arity.accepts operands.length = false) (fuel : Nat) (operator : String) (machine : Machine) :
    ∃ form logged, apply fuel callee operands operator machine =
      .error (.fault (.arity form arity operands.length)) logged ∧ logged.store = machine.store := by
  cases callee with
  | number | symbol | boolean | list => cases listed
  | closure closure =>
      cases listed
      have counts : closure.parameters.length ≠ operands.length := by
        intro same
        rw [Closure.arity, Arity.accepts, same, beq_self_eq_true] at miscounted
        cases miscounted
      exact ⟨operator, _, apply_of_counts_ne operator counts, rfl⟩
  | primitive primitive =>
      cases listed
      rw [apply, applyWith, Eval.bind_ok (Eval.record_apply _ _)]
      simp only [Primitive.call_miscounted miscounted]
      exact ⟨primitive.name, _, rfl, rfl⟩

/-!
### Evaluation by position

Everything that evaluates is written out again, since a lapse deep inside an expression is a lapse of the whole.
-/

/-- What no evaluation may come to. -/
inductive Lapse where
  /-- An operand is taken from a position behind the last of so many. -/
  | beyond (position count : Nat)
  /-- A sequence is evaluated that has no last expression. -/
  | emptySequence
deriving Repr, Inhabited, DecidableEq

/-- A computation that takes operands by position. A lapse is no fault of the program: it is never caught, and
    nothing comes after it. -/
abbrev Positional (m : Type → Type) := ExceptT Lapse m

namespace Positional

/-- The operand at a position. -/
def operandAt {m : Type → Type} [Monad m] {α : Type} (operands : List α) (position : Nat) : Positional m α :=
  match operands[position]? with
  | some operand => pure operand
  | none => throwThe Lapse (.beyond position operands.length)

example : (operandAt ["first", "second"] 2 : Positional Id String).run = .error (.beyond 2 2) := rfl

/-- A call of a primitive. All operands are taken before any of them is looked at; to look at the first before the
    second is taken would take no others. -/
def callPrimitive (primitive : Primitive) (operands : List Value) : Positional (Except Fault) Value :=
  if primitive.arity.accepts operands.length then
    match primitive.operation with
    | .unary run => do
      let operand ← operandAt operands 0
      run operand
    | .binary run => do
      let first ← operandAt operands 0
      let second ← operandAt operands 1
      run first second
  else liftM <| Except.error (Fault.arity primitive.name primitive.arity operands.length)

/-- An evaluator of expressions in frames. -/
abbrev Evaluator := Expr → FrameId → Positional Eval Value

/-- A call without effects as an evaluation. -/
def ofCall {α : Type} (call : Positional (Except Fault) α) : Positional Eval α :=
  ExceptT.mk (Eval.ofExcept call.run)

/-- A call of a value with operands that are evaluated already. -/
def applyWith (inner : Evaluator) (callee : Value) (operands : List Value) (operator : String) :
    Positional Eval Value := do
  Eval.record (.apply operator operands.length)
  match callee with
  | .primitive primitive => ofCall (callPrimitive primitive operands)
  | .closure closure => do
    let frame ← Eval.enter closure.home closure.parameters operands operator
    inner closure.body frame
  | other => liftM <| Eval.raise (.unknownOperator other.text)

/-- The value at the head of an application. -/
def evaluateHead (inner : Evaluator) (head : Expr) (frame : FrameId) : Positional Eval Value :=
  match head with
  | .symbol name => liftM <| evaluateSymbol .unknownOperator name frame
  | other => inner other frame

/-- The callee of an application. -/
def evaluateOperator (inner : Evaluator) (head : Expr) (frame : FrameId) : Positional Eval Value := do
  let callee ← evaluateHead inner head frame
  if callee.isCallable then pure callee else liftM <| Eval.raise (.unknownOperator head.text)

/-- A sequence: all expressions before the last one, then the last one. -/
def evaluateSequence (inner : Evaluator) (frame : FrameId) (body : List Expr) : Positional Eval Value :=
  match body.getLast? with
  | none => throwThe Lapse .emptySequence
  | some last => do
    for expression in body.dropLast do
      let _ ← inner expression frame
    inner last frame

/-- A special form: the number of its operands is compared with the arity of the keyword, and nothing is looked at
    before. -/
def evaluateForm (inner : Evaluator) (keyword : Keyword) (operands : List Expr) (frame : FrameId) :
    Positional Eval Value :=
  if keyword.arity.accepts operands.length then
    match keyword with
    | .quote => do
      let body ← operandAt operands 0
      pure (.ofDatum body)
    | .define => do
      let target ← operandAt operands 0
      let body ← operandAt operands 1
      let name ← liftM <| Eval.ofExcept (bindingName .define target)
      let value ← inner body frame
      Eval.record (.define name value)
      Eval.define frame name value
      pure (.symbol name)
    | .assign => do
      let target ← operandAt operands 0
      let body ← operandAt operands 1
      let name ← liftM <| Eval.ofExcept (bindingName .assign target)
      let value ← inner body frame
      Eval.record (.assign name value)
      Eval.assign frame name value
      pure (.symbol name)
    | .sequence => evaluateSequence inner frame operands
    | .conditional => do
      let condition ← operandAt operands 0
      let consequent ← operandAt operands 1
      let alternative ← operandAt operands 2
      match ← inner condition frame with
      | .boolean true => inner consequent frame
      | .boolean false => inner alternative frame
      | other => liftM <| Eval.raise (.type Keyword.conditional.name .condition other.described)
    | .lambda => do
      let parameters ← operandAt operands 0
      let names ← liftM <| Eval.ofExcept (parametersOf parameters)
      let body ← operandAt operands 1
      Eval.close names body frame
    | .lambdaOne => do
      let parameter ← operandAt operands 0
      let name ← liftM <| Eval.ofExcept (bindingName .lambdaOne parameter)
      let body ← operandAt operands 1
      Eval.close [name] body frame
  else liftM <| Eval.raise (.arity keyword.name keyword.arity operands.length)

/-- One step of evaluation. -/
def evaluateWith (inner : Evaluator) (expression : Expr) (frame : FrameId) : Positional Eval Value :=
  match expression with
  | .number value => pure (.number value)
  | .symbol name => liftM <| evaluateSymbol .unboundVariable name frame
  | .list [] => liftM <| Eval.raise (.unknownOperator (Expr.list []).text)
  | .list (head :: operands) =>
    match Keyword.ofHead? head with
    | some keyword => evaluateForm inner keyword operands frame
    | none => do
      let callee ← evaluateOperator inner head frame
      let values ← operands.mapM fun operand => inner operand frame
      applyWith inner callee values head.text

/-- The value of an expression in a frame, by a recursion no deeper than the fuel. -/
def evaluate : Nat → Evaluator
  | 0, _, _ => liftM (throw .outOfFuel : Eval Value)
  | fuel + 1, expression, frame => evaluateWith (evaluate fuel) expression frame

/-!
### Calls of primitives
-/

theorem ofCall_liftM {α : Type} (result : Except Fault α) :
    ofCall (liftM result) = liftM (Eval.ofExcept result) := by
  cases result <;> rfl

/-- A primitive is listed with as many operands as its operation takes, so each is there when it is taken. -/
theorem callPrimitive_eq (primitive : Primitive) (operands : List Value) :
    callPrimitive primitive operands = liftM (primitive.call operands) := by
  unfold callPrimitive
  cases counted : primitive.arity.accepts operands.length with
  | false =>
      rw [Primitive.call_miscounted counted]
      rfl
  | true =>
      rw [if_pos rfl]
      rw [← primitive.operation_arity] at counted
      cases shape : primitive.operation with
      | unary run =>
          rw [shape] at counted
          obtain ⟨operand, rfl⟩ := List.length_eq_one_iff.mp (eq_of_beq counted)
          rw [Primitive.call_unary shape]
          rfl
      | binary run =>
          rw [shape] at counted
          obtain ⟨first, second, rfl⟩ := List.length_eq_two.mp (eq_of_beq counted)
          rw [Primitive.call_binary shape]
          rfl

/-!
### One step

Where the evaluator for what lies inside never lapses, a step does not lapse either.
-/

/-- An evaluator that does not take operands by position, among those that may. -/
def lifted (plain : LexLisp.Evaluator) : Evaluator :=
  fun expression frame => liftM (plain expression frame)

section Step

variable (plain : LexLisp.Evaluator)

theorem applyWith_lifted (callee : Value) (operands : List Value) (operator : String) :
    applyWith (lifted plain) callee operands operator =
      liftM (LexLisp.applyWith plain callee operands operator) := by
  simp only [applyWith, LexLisp.applyWith, liftM_bind]
  congr 1
  funext _
  cases callee with
  | primitive primitive => simp only [callPrimitive_eq, ofCall_liftM]
  | closure closure => simp only [lifted, liftM_bind]
  | number | symbol | boolean | list => rfl

theorem evaluateOperator_lifted (head : Expr) (frame : FrameId) :
    evaluateOperator (lifted plain) head frame = liftM (LexLisp.evaluateOperator plain head frame) := by
  have atHead : evaluateHead (lifted plain) head frame = liftM (LexLisp.evaluateHead plain head frame) := by
    cases head <;> rfl
  simp only [evaluateOperator, LexLisp.evaluateOperator, liftM_bind, atHead]
  congr 1
  funext callee
  split
  · rw [liftM_pure]
  · rfl

theorem mapM_lifted (operands : List Expr) (frame : FrameId) :
    (operands.mapM fun operand => lifted plain operand frame) =
      liftM (evaluateOperands plain frame operands) := by
  induction operands with
  | nil => rw [List.mapM_nil, evaluateOperands, liftM_pure]
  | cons operand operands inductionHypothesis =>
      rw [List.mapM_cons, inductionHypothesis]
      simp only [evaluateOperands, liftM_bind, liftM_pure]
      rfl

theorem evaluateSequence_cons (inner : Evaluator) (frame : FrameId) (first next : Expr) (rest : List Expr) :
    evaluateSequence inner frame (first :: next :: rest) =
      inner first frame >>= fun _ => evaluateSequence inner frame (next :: rest) := by
  have ends : (next :: rest).getLast? = some ((next :: rest).getLast (List.cons_ne_nil next rest)) :=
    List.getLast?_eq_some_getLast _
  simp [evaluateSequence, List.getLast?_cons_cons, ends]

/-- A sequence with a first expression has a last one. -/
theorem evaluateSequence_lifted (first : Expr) (rest : List Expr) (frame : FrameId) :
    evaluateSequence (lifted plain) frame (first :: rest) =
      liftM (LexLisp.evaluateSequence plain frame first rest) := by
  induction rest generalizing first with
  | nil => rfl
  | cons next rest inductionHypothesis =>
      rw [evaluateSequence_cons, LexLisp.evaluateSequence, liftM_bind]
      simp only [inductionHypothesis]
      rfl

/-- A number of operands that the arity of a keyword accepts has one at each position that the form takes. -/
theorem evaluateForm_lifted (keyword : Keyword) (operands : List Expr) (frame : FrameId) :
    evaluateForm (lifted plain) keyword operands frame =
      liftM (LexLisp.evaluateForm plain keyword operands frame) := by
  unfold evaluateForm
  cases accepted : keyword.arity.accepts operands.length with
  | false =>
      rw [evaluateForm_miscounted accepted]
      rfl
  | true =>
      rw [if_pos rfl]
      -- The accepted operands have names now, and every position that is taken holds one of them.
      cases Keyword.takes_of_accepts accepted with
      | quote body =>
          simp only [LexLisp.evaluateForm, liftM_pure]
          rfl
      | define target body | assign target body =>
          simp only [LexLisp.evaluateForm, liftM_pure, liftM_bind]
          rfl
      | sequence first rest => exact evaluateSequence_lifted plain first rest frame
      | conditional condition consequent alternative =>
          simp only [LexLisp.evaluateForm, liftM_bind]
          refine congrArg (lifted plain condition frame >>= ·) (funext fun value => ?_)
          cases value with
          | boolean truth => cases truth <;> rfl
          | number | symbol | list | closure | primitive => rfl
      | lambda parameters body | lambdaOne parameter body =>
          simp only [LexLisp.evaluateForm, liftM_bind]
          rfl

theorem evaluateWith_lifted (expression : Expr) (frame : FrameId) :
    evaluateWith (lifted plain) expression frame = liftM (LexLisp.evaluateWith plain expression frame) := by
  cases expression with
  | number value => exact (liftM_pure _).symm
  | symbol name => rfl
  | list items =>
      cases items with
      | nil => rfl
      | cons head operands =>
          simp only [evaluateWith, LexLisp.evaluateWith]
          cases Keyword.ofHead? head with
          | some keyword => exact evaluateForm_lifted plain keyword operands frame
          | none => simp only [evaluateOperator_lifted, mapM_lifted, applyWith_lifted, liftM_bind]

end Step

/-!
### Whole evaluations
-/

/-- An evaluation by position is the evaluation itself, and never lapses. -/
theorem evaluate_eq (fuel : Nat) : evaluate fuel = lifted (LexLisp.evaluate fuel) := by
  induction fuel with
  | zero => rfl
  | succ fuel inductionHypothesis =>
      funext expression frame
      rw [evaluate, inductionHypothesis]
      exact evaluateWith_lifted _ expression frame

end Positional

/-- No operand is taken from a position that has none. Whatever is evaluated, called or given to a special form or a
    primitive, with however many operands: taking the operands by position ends as the evaluation does, with a value
    or a fault and never with a lapse. A number of operands that is not accepted is the fault, with the store
    unchanged and whatever evaluator there is for the operands. A primitive that is given the right number of operands
    fails for the leftmost one that should be a number and is none, for a divisor that is zero, for an operand that
    should be a list and is none, or for an empty list, and for nothing else. -/
theorem operands_taken_in_range :
    (∀ fuel expression frame,
      (Positional.evaluate fuel expression frame).run = Except.ok <$> evaluate fuel expression frame) ∧
    (∀ fuel keyword operands frame,
      (Positional.evaluateForm (Positional.evaluate fuel) keyword operands frame).run =
        Except.ok <$> evaluateKeyword fuel keyword operands frame) ∧
    (∀ fuel callee operands operator,
      (Positional.applyWith (Positional.evaluate fuel) callee operands operator).run =
        Except.ok <$> apply fuel callee operands operator) ∧
    (∀ primitive operands,
      (Positional.callPrimitive primitive operands).run = Except.ok <$> primitive.call operands) ∧
    (∀ inner (keyword : Keyword) operands frame machine, keyword.arity.accepts operands.length = false →
      evaluateForm inner keyword operands frame machine =
        .error (.fault (.arity keyword.name keyword.arity operands.length)) machine) ∧
    (∀ fuel head keyword operands frame machine, Keyword.ofHead? head = some keyword →
      keyword.arity.accepts operands.length = false →
      evaluate (fuel + 1) (.list (head :: operands)) frame machine =
        .error (.fault (.arity keyword.name keyword.arity operands.length)) machine) ∧
    (∀ fuel (callee : Value) arity operands operator machine, callee.arity? = some arity →
      arity.accepts operands.length = false →
      ∃ form logged, apply fuel callee operands operator machine =
        .error (.fault (.arity form arity operands.length)) logged ∧ logged.store = machine.store) ∧
    ∀ (primitive : Primitive) operands fault,
      primitive.call operands = .error fault ↔ primitive.Refuses operands fault := by
  refine ⟨?_, ?_, ?_, ?_, ?_, ?_, ?_, ?_⟩
  · intro fuel expression frame
    rw [Positional.evaluate_eq]
    rfl
  · intro fuel keyword operands frame
    rw [Positional.evaluate_eq, Positional.evaluateForm_lifted]
    rfl
  · intro fuel callee operands operator
    rw [Positional.evaluate_eq, Positional.applyWith_lifted]
    rfl
  · intro primitive operands
    rw [Positional.callPrimitive_eq]
    rfl
  · intro inner keyword operands frame machine miscounted
    rw [evaluateForm_miscounted miscounted]
    rfl
  · intro fuel head keyword operands frame machine named miscounted
    rw [evaluate_form named, evaluateForm_miscounted miscounted]
    rfl
  · intro fuel callee arity operands operator machine listed miscounted
    exact apply_miscounted listed miscounted fuel operator machine
  · intro primitive operands fault
    exact Primitive.call_eq_error_iff

/-- A conditional with two operands, each of which would define a name; an accessor called with nothing; a difference
    of two operands that are both no numbers; and a quotient by the negative zero. -/
theorem operands_taken_in_range_miscounted :
    let start : Machine := .ofStore .fresh
    let operand : Expr := .list [.symbol "define", .symbol "x", .number 1]
    Keyword.conditional.arity.accepts [operand, operand].length = false ∧
      evaluate 3 (.list [.symbol "if", operand, operand]) Store.globalFrame start =
        .error (.fault (.arity "if" (.exactly 3) 2)) start ∧
      (Value.primitive .car).arity? = some (.exactly 1) ∧
      (∃ form logged, apply 2 (.primitive .car) [] "first" start =
        .error (.fault (.arity form (.exactly 1) 0)) logged ∧ logged.store = start.store) ∧
      Primitive.subtract.call [.symbol "a", .list []] = .error (.type "-" .aNumber "symbol a") ∧
      Primitive.divide.call [.number 1, .number (-0)] = .error .divisionByZero := by
  intro start operand
  obtain ⟨_, _, _, _, _, forms, calls, refusals⟩ := operands_taken_in_range
  refine ⟨rfl, ?_, rfl, ?_, ?_, ?_⟩
  · exact forms 2 (.symbol "if") .conditional [operand, operand] Store.globalFrame start (by decide) rfl
  · exact calls 2 (.primitive .car) (.exactly 1) [] "first" start rfl rfl
  · have described : "symbol a" = (Value.symbol "a").described := by decide
    rw [described]
    exact (refusals .subtract [.symbol "a", .list []] _).mpr (.notNumber rfl rfl rfl)
  · exact (refusals .divide [.number 1, .number (-0)] _).mpr (.zeroDivisor (.inr rfl))

end LexLisp
