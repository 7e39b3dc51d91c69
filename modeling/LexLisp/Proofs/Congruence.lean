/-
Module: LexLisp.Proofs.Congruence
Purpose: Relations between evaluations. A relation between actions of the machine is a congruence if it holds of every
  basic action and itself, and of two sequences of actions wherever it holds of their parts. Such a relation is carried
  by each step of the evaluator from the evaluators for what lies inside to the expression. The walk over operands,
  sequences, calls and forms is made here once, and serves every relation of this kind; the two evaluations may differ
  in what is inside and in how they report a name that is missing at the head of an application.
Main exports: evaluateAs, evaluateAs_unknownOperator, Eval.Congruence, Eval.Congruence.of_refl, evaluateWithAs_congr,
  evaluateAs_congr, evaluate_congr
-/
import LexLisp.Proofs.Outcome

namespace LexLisp

/-!
### How a name that is missing at the head is reported

An application whose head is an unbound name and one whose head has a value that cannot be applied can end
with the same fault. `evaluateAs` leaves open what the first is called, so the two can be told apart; with the
fault of `evaluate` it is `evaluate`.
-/

/-- The value at the head of an application, where `missing` is the fault of a name that is not bound. -/
def evaluateHeadAs (missing : String → Fault) (inner : Evaluator) (head : Expr) (frame : FrameId) :
    Eval Value :=
  match head with
  | .symbol name => evaluateSymbol missing name frame
  | other => inner other frame

/-- The callee of an application. -/
def evaluateOperatorAs (missing : String → Fault) (inner : Evaluator) (head : Expr) (frame : FrameId) :
    Eval Value := do
  let callee ← evaluateHeadAs missing inner head frame
  if callee.isCallable then pure callee else Eval.raise (.unknownOperator head.text)

/-- One step of evaluation. -/
def evaluateWithAs (missing : String → Fault) (inner : Evaluator) (expression : Expr)
    (frame : FrameId) : Eval Value :=
  match expression with
  | .number value => pure (.number value)
  | .symbol name => evaluateSymbol .unboundVariable name frame
  | .list [] => Eval.raise (.unknownOperator (Expr.list []).text)
  | .list (head :: operands) =>
    match Keyword.ofHead? head with
    | some keyword => evaluateForm inner keyword operands frame
    | none => do
      let callee ← evaluateOperatorAs missing inner head frame
      let values ← evaluateOperands inner frame operands
      applyWith inner callee values head.text

/-- The value of an expression in a frame, where `missing` is the fault of an unbound name at the head of
    an application. -/
def evaluateAs (missing : String → Fault) : Nat → Expr → FrameId → Eval Value
  | 0, _, _ => throw .outOfFuel
  | fuel + 1, expression, frame => evaluateWithAs missing (evaluateAs missing fuel) expression frame

/-- With the fault of `evaluate` a step is a step of `evaluate`. -/
theorem evaluateWithAs_unknownOperator (inner : Evaluator) :
    evaluateWithAs .unknownOperator inner = evaluateWith inner := by
  funext expression frame
  unfold evaluateWithAs evaluateWith
  rfl

/-- Evaluation reports a name that is missing at the head as an unknown operator. -/
theorem evaluateAs_unknownOperator (fuel : Nat) : evaluateAs .unknownOperator fuel = evaluate fuel := by
  induction fuel with
  | zero => rfl
  | succ fuel inductionHypothesis =>
      funext expression frame
      simp only [evaluateAs, evaluate, inductionHypothesis, evaluateWithAs_unknownOperator]

/-!
### Congruences
-/

/-- A relation between actions with the same type of result that is kept by whatever the evaluator builds actions with:
    it holds of each basic action and itself, and of two actions in sequence if it holds of the first ones, and of the
    second ones for every value that may be handed over. -/
structure Eval.Congruence (related : {α : Type} → Eval α → Eval α → Prop) : Prop where
  done {α : Type} (value : α) : related (pure value : Eval α) (pure value)
  raise {α : Type} (fault : Fault) : related (Eval.raise fault : Eval α) (Eval.raise fault)
  record (event : Event) : related (Eval.record event) (Eval.record event)
  lookup (missing : String → Fault) (frame : FrameId) (name : String) :
    related (Eval.lookup missing frame name) (Eval.lookup missing frame name)
  define (frame : FrameId) (name : String) (value : Value) :
    related (Eval.define frame name value) (Eval.define frame name value)
  assign (frame : FrameId) (name : String) (value : Value) :
    related (Eval.assign frame name value) (Eval.assign frame name value)
  enter (home : FrameId) (parameters : List String) (operands : List Value) (callee : String) :
    related (Eval.enter home parameters operands callee) (Eval.enter home parameters operands callee)
  close (parameters : List String) (body : Expr) (home : FrameId) :
    related (Eval.close parameters body home) (Eval.close parameters body home)
  bind {α β : Type} {action more : Eval β} {next following : β → Eval α} (now : related action more)
    (later : ∀ value, related (next value) (following value)) : related (action >>= next) (more >>= following)

/-- A relation that every action has to itself, and that is kept by sequence, is a congruence. -/
theorem Eval.Congruence.of_refl {related : {α : Type} → Eval α → Eval α → Prop}
    (refl : ∀ {α : Type} (action : Eval α), related action action)
    (bind : ∀ {α β : Type} {action more : Eval β} {next following : β → Eval α}, related action more →
      (∀ value, related (next value) (following value)) → related (action >>= next) (more >>= following)) :
    Eval.Congruence related where
  done _ := refl _
  raise _ := refl _
  record _ := refl _
  lookup _ _ _ := refl _
  define _ _ _ := refl _
  assign _ _ _ := refl _
  enter _ _ _ _ := refl _
  close _ _ _ := refl _
  bind := bind

section Steps

variable {related : {α : Type} → Eval α → Eval α → Prop} (congruence : Eval.Congruence related)

include congruence

/-- A computation without effects yields or fails on both sides. -/
theorem Eval.Congruence.ofExcept {α : Type} (result : Except Fault α) :
    related (Eval.ofExcept result) (Eval.ofExcept result) := by
  cases result with
  | ok value => exact congruence.done value
  | error fault => exact congruence.raise fault

/-- A symbol has no parts: a tag is a value, and any other name is looked up. -/
theorem evaluateSymbol_congr (missing : String → Fault) (name : String) (frame : FrameId) :
    related (evaluateSymbol missing name frame) (evaluateSymbol missing name frame) := by
  unfold evaluateSymbol
  split
  · exact congruence.done _
  · exact congruence.lookup missing frame name

variable {inner more : Evaluator} (inside : ∀ expression frame, related (inner expression frame) (more expression frame))

include inside

/-- Operands, one after another. -/
theorem evaluateOperands_congr (frame : FrameId) (operands : List Expr) :
    related (evaluateOperands inner frame operands) (evaluateOperands more frame operands) := by
  induction operands with
  | nil => exact congruence.done []
  | cons operand operands inductionHypothesis =>
      unfold evaluateOperands
      exact congruence.bind (inside operand frame) fun _ =>
        congruence.bind inductionHypothesis fun _ => congruence.done _

/-- The expressions of a sequence, one after another. -/
theorem evaluateSequence_congr (frame : FrameId) (first : Expr) (rest : List Expr) :
    related (evaluateSequence inner frame first rest) (evaluateSequence more frame first rest) := by
  induction rest generalizing first with
  | nil => exact inside first frame
  | cons next rest inductionHypothesis =>
      unfold evaluateSequence
      exact congruence.bind (inside first frame) fun _ => inductionHypothesis next

/-- A call evaluates something inside only if the callee is a closure: its body, in the new frame. -/
theorem applyWith_congr (callee : Value) (operands : List Value) (operator : String) :
    related (applyWith inner callee operands operator) (applyWith more callee operands operator) := by
  unfold applyWith
  refine congruence.bind (congruence.record _) fun _ => ?_
  cases callee with
  | primitive primitive => exact congruence.ofExcept _
  | closure closure => exact congruence.bind (congruence.enter _ _ _ _) fun frame => inside closure.body frame
  | number | symbol | boolean | list => exact congruence.raise _

/-- Each special form is a sequence of basic actions and of evaluations of its operands. -/
theorem evaluateForm_congr (keyword : Keyword) (operands : List Expr) (frame : FrameId) :
    related (evaluateForm inner keyword operands frame) (evaluateForm more keyword operands frame) := by
  unfold evaluateForm
  split
  · exact congruence.done _
  · exact congruence.bind (congruence.ofExcept _) fun _ => congruence.bind (inside _ frame) fun _ =>
      congruence.bind (congruence.record _) fun _ => congruence.bind (congruence.define _ _ _) fun _ =>
        congruence.done _
  · exact congruence.bind (congruence.ofExcept _) fun _ => congruence.bind (inside _ frame) fun _ =>
      congruence.bind (congruence.record _) fun _ => congruence.bind (congruence.assign _ _ _) fun _ =>
        congruence.done _
  · exact evaluateSequence_congr congruence inside frame _ _
  · refine congruence.bind (inside _ frame) fun chosen => ?_
    split
    · exact inside _ frame
    · exact inside _ frame
    · exact congruence.raise _
  · exact congruence.bind (congruence.ofExcept _) fun _ => congruence.close _ _ _
  · exact congruence.bind (congruence.ofExcept _) fun _ => congruence.close _ _ _
  · exact congruence.raise _

variable {missing missing' : String → Fault}
  (heads : ∀ name frame, related (evaluateSymbol missing name frame) (evaluateSymbol missing' name frame))

include heads

/-- The callee of an application: a symbol is looked up, and any other head is evaluated. -/
theorem evaluateOperatorAs_congr (head : Expr) (frame : FrameId) :
    related (evaluateOperatorAs missing inner head frame) (evaluateOperatorAs missing' more head frame) := by
  unfold evaluateOperatorAs
  refine congruence.bind ?_ fun callee => ?_
  · cases head with
    | symbol name => exact heads name frame
    | number value => exact inside (.number value) frame
    | list items => exact inside (.list items) frame
  · split
    · exact congruence.done callee
    · exact congruence.raise _

/-- One step of evaluation is related to another if what evaluates the parts is. -/
theorem evaluateWithAs_congr (expression : Expr) (frame : FrameId) :
    related (evaluateWithAs missing inner expression frame) (evaluateWithAs missing' more expression frame) := by
  unfold evaluateWithAs
  split
  · exact congruence.done _
  · exact evaluateSymbol_congr congruence _ _ frame
  · exact congruence.raise _
  · split
    · exact evaluateForm_congr congruence inside _ _ frame
    · exact congruence.bind (evaluateOperatorAs_congr congruence inside heads _ frame) fun callee =>
        congruence.bind (evaluateOperands_congr congruence inside frame _) fun values =>
          applyWith_congr congruence inside callee values _

end Steps

section Runs

variable {related : {α : Type} → Eval α → Eval α → Prop} (congruence : Eval.Congruence related) {extra : Nat}

include congruence

/-- Whole evaluations are related, the second with so much more fuel than the first, if heads that are symbols are, and
    if the end of the fuel is related to whatever the second does where the first has come to that end. -/
theorem evaluateAs_congr {missing missing' : String → Fault}
    (heads : ∀ name frame, related (evaluateSymbol missing name frame) (evaluateSymbol missing' name frame))
    (cut : ∀ expression frame, related (throw .outOfFuel) (evaluateAs missing' extra expression frame))
    (fuel : Nat) (expression : Expr) (frame : FrameId) :
    related (evaluateAs missing fuel expression frame) (evaluateAs missing' (fuel + extra) expression frame) := by
  induction fuel generalizing expression frame with
  | zero =>
      rw [Nat.zero_add]
      exact cut expression frame
  | succ fuel inductionHypothesis =>
      rw [Nat.add_right_comm]
      exact evaluateWithAs_congr congruence inductionHypothesis heads expression frame

/-- So are evaluations that report alike. -/
theorem evaluate_congr (cut : ∀ expression frame, related (throw .outOfFuel) (evaluate extra expression frame))
    (fuel : Nat) (expression : Expr) (frame : FrameId) :
    related (evaluate fuel expression frame) (evaluate (fuel + extra) expression frame) := by
  rw [← evaluateAs_unknownOperator extra] at cut
  rw [← evaluateAs_unknownOperator fuel, ← evaluateAs_unknownOperator (fuel + extra)]
  exact evaluateAs_congr congruence (evaluateSymbol_congr congruence .unknownOperator) cut fuel expression frame

end Runs

end LexLisp
