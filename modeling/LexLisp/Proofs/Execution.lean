/-
Module: LexLisp.Proofs.Execution
Purpose: Evaluations that yield a value, one equation for each form. Where the parts of an expression yield values,
  the expression yields its own, and the machine is known; with these equations a program is run by hand. A session
  that is given forms one after another takes each where the one before left it.
Main exports: evaluate_variable, evaluate_form, evaluate_application, evaluate_define, evaluate_assign, evaluate_call,
  applyWith_closure, Session.submit, Session.after, Session.replies
-/
import LexLisp.Proofs.Chain
import LexLisp.Proofs.Outcome
import LexLisp.Session

namespace LexLisp

section Forms

variable {fuel : Nat} {frame : FrameId} {machine later : Machine} {name : String} {value : Value}

theorem evaluate_number (number : Float) :
    evaluate (fuel + 1) (.number number) frame machine = .ok (.number number) machine :=
  rfl

theorem evaluate_variable (plain : truth? name = none) (found : machine.store.lookup? frame name = some value) :
    evaluate (fuel + 1) (.symbol name) frame machine = .ok value machine := by
  simp only [evaluate, evaluateWith, evaluateSymbol, plain]
  exact Eval.lookup_some found

/-- A list with a keyword at its head is that special form. -/
theorem evaluate_form {head : Expr} {keyword : Keyword} (named : Keyword.ofHead? head = some keyword)
    (operands : List Expr) :
    evaluate (fuel + 1) (.list (head :: operands)) frame = evaluateForm (evaluate fuel) keyword operands frame := by
  simp only [evaluate, evaluateWith, named]

/-- Any other list is an application: head, operands, call. -/
theorem evaluate_application {head : Expr} (plain : Keyword.ofHead? head = none) (operands : List Expr) :
    evaluate (fuel + 1) (.list (head :: operands)) frame = (do
      let callee ← evaluateOperator (evaluate fuel) head frame
      let values ← evaluateOperands (evaluate fuel) frame operands
      applyWith (evaluate fuel) callee values head.text) := by
  simp only [evaluate, evaluateWith, plain]

theorem evaluate_define {body : Expr} (ending : evaluate fuel body frame machine = .ok value later) :
    evaluate (fuel + 1) (.list [.symbol "define", .symbol name, body]) frame machine =
      .ok (.symbol name) ⟨later.store.define frame name value, later.log.push (.define name value)⟩ := by
  have keyword : Keyword.ofHead? (.symbol "define") = some .define := by decide
  simp only [evaluate, evaluateWith, keyword, evaluateForm, bindingName, Eval.ofExcept_ok]
  rw [Eval.bind_ok (Eval.pure_apply _ _), Eval.bind_ok ending]
  rfl

/-- An assignment is logged once its body has yielded a value, and then it looks for the binding. -/
theorem evaluate_assignment {head body : Expr} (named : Keyword.ofHead? head = some .assign)
    (ending : evaluate fuel body frame machine = .ok value later) :
    evaluate (fuel + 1) (.list [head, .symbol name, body]) frame machine =
      (Eval.assign frame name value >>= fun _ => pure (.symbol name))
        ⟨later.store, later.log.push (.assign name value)⟩ := by
  rw [evaluate_form named]
  simp only [evaluateForm, bindingName, Eval.ofExcept_ok]
  rw [Eval.bind_ok (Eval.pure_apply _ _), Eval.bind_ok ending, Eval.bind_ok (Eval.record_apply _ _)]

theorem evaluate_assign_of_named {head body : Expr} {link : FrameId} (named : Keyword.ofHead? head = some .assign)
    (ending : evaluate fuel body frame machine = .ok value later)
    (found : later.store.nearest? frame name = some link) :
    evaluate (fuel + 1) (.list [head, .symbol name, body]) frame machine =
      .ok (.symbol name) ⟨later.store.define link name value, later.log.push (.assign name value)⟩ := by
  let recorded : Machine := { later with log := later.log.push (.assign name value) }
  have assigned : Eval.assign frame name value recorded =
      .ok () { recorded with store := later.store.define link name value } :=
    Eval.assign_some found
  rw [evaluate_assignment named ending]
  exact Eval.bind_ok assigned

theorem evaluate_assign {body : Expr} {link : FrameId} (ending : evaluate fuel body frame machine = .ok value later)
    (found : later.store.nearest? frame name = some link) :
    evaluate (fuel + 1) (.list [.symbol "set!", .symbol name, body]) frame machine =
      .ok (.symbol name) ⟨later.store.define link name value, later.log.push (.assign name value)⟩ :=
  evaluate_assign_of_named (by decide) ending found

/-- A sequence goes on where its first expression leaves the machine. -/
theorem evaluate_sequence {first next : Expr} (ending : evaluate fuel first frame machine = .ok value later) :
    evaluate (fuel + 1) (.list [.symbol "begin", first, next]) frame machine = evaluate fuel next frame later := by
  have keyword : Keyword.ofHead? (.symbol "begin") = some .sequence := by decide
  simp only [evaluate, evaluateWith, keyword, evaluateForm, evaluateSequence]
  exact Eval.bind_ok ending

theorem evaluateOperands_cons {inner : Evaluator} {operand : Expr} {operands : List Expr} {values : List Value}
    {last : Machine} (first : inner operand frame machine = .ok value later)
    (rest : evaluateOperands inner frame operands later = .ok values last) :
    evaluateOperands inner frame (operand :: operands) machine = .ok (value :: values) last := by
  rw [evaluateOperands, Eval.bind_ok first, Eval.bind_ok rest]
  rfl

/-- A call of a procedure by its name. -/
theorem evaluate_call {operands : List Expr} {values : List Value} {callee : Value}
    (ordinary : Keyword.ofName? name = none) (plain : truth? name = none)
    (found : machine.store.lookup? frame name = some callee) (callable : callee.isCallable = true)
    (evaluated : evaluateOperands (evaluate fuel) frame operands machine = .ok values later) :
    evaluate (fuel + 1) (.list (.symbol name :: operands)) frame machine =
      applyWith (evaluate fuel) callee values name later := by
  have operator : evaluateOperator (evaluate fuel) (.symbol name) frame machine = .ok callee machine := by
    simp only [evaluateOperator, evaluateHead, evaluateSymbol, plain]
    rw [Eval.bind_ok (Eval.lookup_some found), if_pos callable]
    rfl
  have head : Keyword.ofHead? (.symbol name) = none := ordinary
  rw [evaluate_application head, Eval.bind_ok operator, Eval.bind_ok evaluated]
  rfl

theorem applyWith_closure {inner : Evaluator} {closure : Closure} {values : List Value} {operator : String}
    (counts : closure.parameters.length = values.length) :
    applyWith inner (.closure closure) values operator machine =
      inner closure.body machine.store.size
        ⟨(machine.store.enter closure.home closure.parameters values).2,
          machine.log.push (.apply operator values.length)⟩ := by
  rw [applyWith, Eval.bind_ok (Eval.record_apply _ _)]
  exact Eval.bind_ok (Eval.enter_of_counts counts)

theorem applyWith_primitive {inner : Evaluator} {primitive : Primitive} {values : List Value} {operator : String}
    (called : primitive.call values = .ok value) :
    applyWith inner (.primitive primitive) values operator machine =
      .ok value { machine with log := machine.log.push (.apply operator values.length) } := by
  rw [applyWith, Eval.bind_ok (Eval.record_apply _ _)]
  simp only [called]
  rfl

end Forms

/-!
### Forms given to a session
-/

namespace Session

/-- A session takes one form at top level: what it answers, and the session after it. -/
def submit (session : Session) (fuel : Nat) (form : Expr) : Except Failure Value × Session :=
  session.perform (runForms fuel [form] Store.globalFrame)

/-- The session after forms, one after another. -/
def after (session : Session) (fuel : Nat) (forms : List Expr) : Session :=
  forms.foldl (fun session form => (session.submit fuel form).2) session

/-- What a session answers to forms, one after another. -/
def replies (session : Session) (fuel : Nat) : List Expr → List (Except Failure Value)
  | [] => []
  | form :: forms => (session.submit fuel form).1 :: (session.submit fuel form).2.replies fuel forms

/-- A text that holds one form is executed as that form. -/
theorem execute_eq_submit {source text : String} {form : Expr} (reads : read source text = .ok [form])
    (session : Session) (fuel : Nat) : session.execute fuel source text = session.submit fuel form := by
  rw [execute, runText, reads]
  rfl

theorem submit_of_evaluate {session : Session} {fuel : Nat} {form : Expr} {value : Value} {later : Machine}
    (ending : evaluate fuel form Store.globalFrame session.machine = .ok value later) :
    session.submit fuel form = (.ok value, ⟨later⟩) := by
  have run : evaluateForms fuel [form] Store.globalFrame session.machine = .ok value later := by
    rw [evaluateForms, evaluateFormsFrom, Eval.bind_ok (Eval.onFault_ok ending)]
    rfl
  rw [submit, perform, runForms, Run.ofEval, EStateM.adaptExcept, run]

end Session

end LexLisp
