/-
Module: LexLisp.Evaluator
Purpose: The meaning of expressions. A number means itself, a symbol what it is bound to, a list with a
  keyword at its head what that special form says, and any other list an application: head, then operands
  from left to right, then the call. A call makes one frame, inside the frame in which the procedure was
  made and not inside the caller's; that makes scoping lexical.
Main exports: Evaluator, applyWith, evaluateForm, evaluateWith, evaluate, apply, evaluateKeyword
-/
import LexLisp.Keyword
import LexLisp.Machine
import LexLisp.Primitive.Call

namespace LexLisp

/-!
One step of the evaluator is a function of the evaluator for what lies inside. `evaluate` closes this with a
bound on the depth of the recursion, so it is total, and whatever every step keeps, every evaluation keeps.
-/

/-- An evaluator of expressions in frames. -/
abbrev Evaluator := Expr → FrameId → Eval Value

/-- The value of a symbol: a tag stands for itself, any other name is a variable, and `missing` is the
    fault if that variable is not bound. -/
def evaluateSymbol (missing : String → Fault) (name : String) (frame : FrameId) : Eval Value :=
  match truth? name with
  | some value => pure (.boolean value)
  | none => Eval.lookup missing frame name

/-- The values of operands, from left to right. -/
def evaluateOperands (inner : Evaluator) (frame : FrameId) : List Expr → Eval (List Value)
  | [] => pure []
  | operand :: operands => do
    let value ← inner operand frame
    let values ← evaluateOperands inner frame operands
    pure (value :: values)

/-- A sequence has the value of its last expression. -/
def evaluateSequence (inner : Evaluator) (frame : FrameId) : Expr → List Expr → Eval Value
  | last, [] => inner last frame
  | first, next :: rest => do
    let _ ← inner first frame
    evaluateSequence inner frame next rest

/-!
### Calls
-/

/-- A call of a value with operands that are evaluated already; `operator` is what reports call it. -/
def applyWith (inner : Evaluator) (callee : Value) (operands : List Value) (operator : String) :
    Eval Value := do
  Eval.record (.apply operator operands.length)
  match callee with
  | .primitive primitive => Eval.ofExcept (primitive.call operands)
  | .closure closure => do
    let frame ← Eval.enter closure.home closure.parameters operands operator
    inner closure.body frame
  | other => Eval.raise (.unknownOperator other.text)

/-- The value at the head of an application, where a name that is not bound is an unknown operator. -/
def evaluateHead (inner : Evaluator) (head : Expr) (frame : FrameId) : Eval Value :=
  match head with
  | .symbol name => evaluateSymbol .unknownOperator name frame
  | other => inner other frame

/-- The callee of an application. A value that cannot be applied is reported by the head as written, before
    any operand is evaluated. -/
def evaluateOperator (inner : Evaluator) (head : Expr) (frame : FrameId) : Eval Value := do
  let callee ← evaluateHead inner head frame
  if callee.isCallable then pure callee else Eval.raise (.unknownOperator head.text)

/-!
### Special forms
-/

/-- The name that a form binds. -/
def bindingName (keyword : Keyword) : Expr → Except Fault String
  | .symbol name => .ok name
  | other => .error (.type keyword.name .aSymbol other.text)

/-- The names of a parameter list, behind names that are taken. The leftmost element that is no symbol, or
    repeats a name, is the fault. -/
def parameterNames (taken : List String) : List Expr → Except Fault (List String)
  | [] => .ok []
  | item :: items => do
    let name ← bindingName .lambda item
    if name ∈ taken then
      .error (.type Keyword.lambda.name .distinctNames ("duplicate '" ++ name ++ "'"))
    else do
      let names ← parameterNames (name :: taken) items
      .ok (name :: names)

/-- The parameters of a procedure. -/
def parametersOf : Expr → Except Fault (List String)
  | .list items => parameterNames [] items
  | other => .error (.type Keyword.lambda.name .parameterList other.text)

/-- A special form with its operands, which are not evaluated yet. Each form takes the numbers of operands
    that its patterns show, and any other number is a fault before anything else happens. -/
def evaluateForm (inner : Evaluator) (keyword : Keyword) (operands : List Expr) (frame : FrameId) :
    Eval Value :=
  match keyword, operands with
  | .quote, [body] => pure (.ofDatum body)
  | .define, [target, body] => do
    let name ← Eval.ofExcept (bindingName .define target)
    let value ← inner body frame
    Eval.record (.define name value)
    Eval.define frame name value
    pure (.symbol name)
  | .assign, [target, body] => do
    let name ← Eval.ofExcept (bindingName .assign target)
    let value ← inner body frame
    Eval.record (.assign name value)
    Eval.assign frame name value
    pure (.symbol name)
  | .sequence, first :: rest => evaluateSequence inner frame first rest
  | .conditional, [condition, consequent, alternative] => do
    match ← inner condition frame with
    | .boolean true => inner consequent frame
    | .boolean false => inner alternative frame
    | other => Eval.raise (.type Keyword.conditional.name .condition other.described)
  | .lambda, [parameters, body] => do
    let names ← Eval.ofExcept (parametersOf parameters)
    Eval.close names body frame
  | .lambdaOne, [parameter, body] => do
    let name ← Eval.ofExcept (bindingName .lambdaOne parameter)
    Eval.close [name] body frame
  | keyword, operands => Eval.raise (.arity keyword.name keyword.arity operands.length)

/-!
### Expressions
-/

/-- One step of evaluation, given the evaluator for what lies inside. -/
def evaluateWith (inner : Evaluator) (expression : Expr) (frame : FrameId) : Eval Value :=
  match expression with
  | .number value => pure (.number value)
  | .symbol name => evaluateSymbol .unboundVariable name frame
  | .list [] => Eval.raise (.unknownOperator (Expr.list []).text)
  | .list (head :: operands) =>
    match Keyword.ofHead? head with
    | some keyword => evaluateForm inner keyword operands frame
    | none => do
      let callee ← evaluateOperator inner head frame
      let values ← evaluateOperands inner frame operands
      applyWith inner callee values head.text

/-- The value of an expression in a frame, by a recursion no deeper than the fuel. -/
def evaluate : Nat → Expr → FrameId → Eval Value
  | 0, _, _ => throw .outOfFuel
  | fuel + 1, expression, frame => evaluateWith (evaluate fuel) expression frame

/-- A bound on the depth that no program of ordinary size reaches. -/
def defaultFuel : Nat := 1000000

/-- A call of a value. -/
def apply (fuel : Nat) (callee : Value) (operands : List Value) (operator : String) : Eval Value :=
  applyWith (evaluate fuel) callee operands operator

/-- A special form with its operands. -/
def evaluateKeyword (fuel : Nat) (keyword : Keyword) (operands : List Expr) (frame : FrameId) :
    Eval Value :=
  evaluateForm (evaluate fuel) keyword operands frame

end LexLisp
