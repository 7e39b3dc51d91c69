/-
Module: LexLisp.Proofs.Provenance
Purpose: Where a missing name is reported from. An evaluation hands over to others: to parts of its expression, each
  at the point that it has come to, and to the body of a procedure that it calls. A search that fails ends the
  evaluation that made it, and every evaluation above it ends there too, on the machine as the search left it: what
  lies between the two is a row of returns in which nothing is bound, assigned or called. So an unbound variable that
  a program reports is traced back to one search, and its name is not bound in the global frame when it is reported.
Main exports: TurnOf, StopsInTurn, Task, Task.Calls, Task.Misses, Task.Calls.ending_eq, Task.Reports.exists_misses,
  Anchored, SearchFails, ReportedFrom, missing_name_reported, missing_name_bound_for_caller
-/
import LexLisp.Proofs.Application
import LexLisp.Proofs.ClientRun
import LexLisp.Proofs.Endowment
import LexLisp.Proofs.Grouping
import Mathlib.Logic.Relation

namespace LexLisp

/-!
### One of several expressions
-/

/-- One of several expressions has its turn: those before it have yielded values. -/
inductive TurnOf (fuel : Nat) (frame : FrameId) : List Expr → Machine → Expr → Machine → Prop where
  | now (expression : Expr) (expressions : List Expr) (machine : Machine) :
      TurnOf fuel frame (expression :: expressions) machine expression machine
  | later {expression part : Expr} {expressions : List Expr} {value : Value} {machine middle reached : Machine}
      (first : evaluate fuel expression frame machine = .ok value middle)
      (rest : TurnOf fuel frame expressions middle part reached) :
      TurnOf fuel frame (expression :: expressions) machine part reached

/-- One of several expressions stops when it has its turn. -/
def StopsInTurn (fuel : Nat) (frame : FrameId) (expressions : List Expr) (machine : Machine) (stop : Stop)
    (last : Machine) : Prop :=
  ∃ part reached, TurnOf fuel frame expressions machine part reached ∧
    evaluate fuel part frame reached = .error stop last

section Turns

variable {fuel : Nat} {frame : FrameId} {expressions : List Expr} {machine last : Machine} {stop : Stop}

theorem not_stopsInTurn_nil : ¬ StopsInTurn fuel frame [] machine stop last := by
  rintro ⟨part, reached, turn, _⟩
  cases turn

theorem stopsInTurn_cons_iff {expression : Expr} :
    StopsInTurn fuel frame (expression :: expressions) machine stop last ↔
      evaluate fuel expression frame machine = .error stop last ∨
        ∃ value middle, evaluate fuel expression frame machine = .ok value middle ∧
          StopsInTurn fuel frame expressions middle stop last := by
  constructor
  · rintro ⟨part, reached, turn, stopped⟩
    cases turn with
    | now => exact .inl stopped
    | later first rest => exact .inr ⟨_, _, first, part, reached, rest, stopped⟩
  · rintro (stopped | ⟨value, middle, first, part, reached, rest, stopped⟩)
    · exact ⟨expression, machine, .now expression expressions machine, stopped⟩
    · exact ⟨part, reached, .later first rest, stopped⟩

/-- Operands stop where one of them does. -/
theorem evaluateOperands_eq_error_iff :
    evaluateOperands (evaluate fuel) frame expressions machine = .error stop last ↔
      StopsInTurn fuel frame expressions machine stop last := by
  induction expressions generalizing machine with
  | nil =>
      constructor
      · intro stopped
        cases stopped
      · exact fun inTurn => absurd inTurn not_stopsInTurn_nil
  | cons operand operands inductionHypothesis =>
      rw [evaluateOperands, stopsInTurn_cons_iff, Eval.bind_eq_error_iff]
      simp only [Eval.bind_eq_error_iff, inductionHypothesis, Eval.pure_apply, reduceCtorEq, and_false,
        exists_false, or_false]

/-- A row of expressions stops where one of them does. -/
theorem evaluateRow_eq_error_iff {before : Value} :
    evaluateRow (evaluate fuel) frame before expressions machine = .error stop last ↔
      StopsInTurn fuel frame expressions machine stop last := by
  induction expressions generalizing machine before with
  | nil =>
      constructor
      · intro stopped
        cases stopped
      · exact fun inTurn => absurd inTurn not_stopsInTurn_nil
  | cons expression expressions inductionHypothesis =>
      rw [evaluateRow, stopsInTurn_cons_iff, Eval.bind_eq_error_iff]
      simp only [inductionHypothesis]

/-- A row of expressions that yields a value has had all of them in turn. -/
theorem exists_inTurn_of_evaluateRow {before value : Value}
    (yielded : evaluateRow (evaluate fuel) frame before expressions machine = .ok value last) :
    ∃ values, InTurn fuel frame expressions machine values last := by
  induction expressions generalizing machine before with
  | nil =>
      cases yielded
      exact ⟨[], .done _⟩
  | cons expression expressions inductionHypothesis =>
      obtain ⟨first, middle, evaluated, rest⟩ := Eval.exists_of_bind_ok yielded
      obtain ⟨values, inTurn⟩ := inductionHypothesis rest
      exact ⟨first :: values, .next evaluated inTurn⟩

theorem evaluateSequence_eq_error_iff {first : Expr} {rest : List Expr} :
    evaluateSequence (evaluate fuel) frame first rest machine = .error stop last ↔
      StopsInTurn fuel frame (first :: rest) machine stop last := by
  rw [← evaluateRow_cons (evaluate fuel) frame (.list []), evaluateRow_eq_error_iff]

/-- The machine with the report of a form that failed. -/
def Machine.report (machine : Machine) (index : Nat) (form : Expr) (fault : Fault) : Machine :=
  { machine with log := machine.log.push (.failed index form fault) }

/-- Forms fail where one of them does, and all that is added is the report of it. -/
theorem TurnOf.evaluateFormsFrom_fault {form : Expr} {reached moment : Machine} {fault : Fault}
    (turn : TurnOf fuel frame expressions machine form reached)
    (failed : evaluate fuel form frame reached = .error (.fault fault) moment) (start : Nat) (before : Value) :
    ∃ index, evaluateFormsFrom fuel frame start before expressions machine =
      .error (.fault fault) (moment.report index form fault) := by
  induction turn generalizing start before with
  | now =>
      rw [evaluateFormsFrom]
      exact ⟨start, Eval.bind_error (Eval.onFault_fault failed _)⟩
  | later first _ inductionHypothesis =>
      rw [evaluateFormsFrom, Eval.bind_ok (Eval.onFault_ok first)]
      exact inductionHypothesis failed (start + 1) _

theorem exists_turnOf_of_evaluateFormsFrom {final : Machine} {fault : Fault} {start : Nat} {before : Value}
    (failed : evaluateFormsFrom fuel frame start before expressions machine = .error (.fault fault) final) :
    ∃ form reached moment index, TurnOf fuel frame expressions machine form reached ∧
      evaluate fuel form frame reached = .error (.fault fault) moment ∧ final = moment.report index form fault := by
  induction expressions generalizing machine start before with
  | nil => cases failed
  | cons form forms inductionHypothesis =>
      rw [evaluateFormsFrom] at failed
      cases ending : evaluate fuel form frame machine with
      | ok value middle =>
          rw [Eval.bind_ok (Eval.onFault_ok ending)] at failed
          obtain ⟨part, reached, moment, index, turn, stopped, same⟩ := inductionHypothesis failed
          exact ⟨part, reached, moment, index, .later ending turn, stopped, same⟩
      | error stop moment =>
          cases stop with
          | fault cause =>
              rw [Eval.bind_error (Eval.onFault_fault ending _)] at failed
              cases failed
              exact ⟨form, machine, moment, start, .now form forms machine, ending, rfl⟩
          | outOfFuel =>
              obtain ⟨logged, reported, _⟩ := Eval.onFault_error ending fun fault => .failed start form fault
              rw [Eval.bind_error reported] at failed
              cases failed

end Turns

/-!
### Evaluations and what they hand over to
-/

/-- An evaluation that is to be made: of what, where, on which machine, and how deep it may go. -/
structure Task where
  fuel : Nat
  expression : Expr
  frame : FrameId
  machine : Machine

namespace Task

/-- How an evaluation ends. -/
def ending (task : Task) : Ending Value :=
  evaluate task.fuel task.expression task.frame task.machine

/-- What a special form evaluates in its own frame, and the machine at that point. -/
inductive FormCalls (fuel : Nat) (frame : FrameId) (machine : Machine) :
    Keyword → List Expr → Expr → Machine → Prop where
  | defined {name : String} {body : Expr} :
      FormCalls fuel frame machine .define [.symbol name, body] body machine
  | assigned {name : String} {body : Expr} :
      FormCalls fuel frame machine .assign [.symbol name, body] body machine
  | sequenced {expressions : List Expr} {part : Expr} {reached : Machine}
      (turn : TurnOf fuel frame expressions machine part reached) :
      FormCalls fuel frame machine .sequence expressions part reached
  | condition {condition consequent alternative : Expr} :
      FormCalls fuel frame machine .conditional [condition, consequent, alternative] condition machine
  | branch {condition consequent alternative : Expr} {truth : Bool} {reached : Machine}
      (decided : evaluate fuel condition frame machine = .ok (.boolean truth) reached) :
      FormCalls fuel frame machine .conditional [condition, consequent, alternative]
        (if truth then consequent else alternative) reached

/-- An evaluation hands over to another one, whose outcome it needs to go on. -/
inductive Calls : Task → Task → Prop where
  | form {fuel : Nat} {head part : Expr} {keyword : Keyword} {operands : List Expr} {frame : FrameId}
      {machine reached : Machine} (named : Keyword.ofHead? head = some keyword)
      (inForm : FormCalls fuel frame machine keyword operands part reached) :
      Calls ⟨fuel + 1, .list (head :: operands), frame, machine⟩ ⟨fuel, part, frame, reached⟩
  /-- A compound head; a symbol at the head is not evaluated but searched for. -/
  | operator {fuel : Nat} {items operands : List Expr} {frame : FrameId} {machine : Machine} :
      Calls ⟨fuel + 1, .list (.list items :: operands), frame, machine⟩ ⟨fuel, .list items, frame, machine⟩
  | operand {fuel : Nat} {head part : Expr} {operands : List Expr} {frame : FrameId} {callee : Value}
      {machine middle reached : Machine} (plain : Keyword.ofHead? head = none)
      (atHead : evaluateOperator (evaluate fuel) head frame machine = .ok callee middle)
      (turn : TurnOf fuel frame operands middle part reached) :
      Calls ⟨fuel + 1, .list (head :: operands), frame, machine⟩ ⟨fuel, part, frame, reached⟩
  /-- The body of the closure that is called, in the new frame. -/
  | call {fuel : Nat} {head : Expr} {operands : List Expr} {frame : FrameId} {closure : Closure}
      {values : List Value} {machine middle last : Machine} (plain : Keyword.ofHead? head = none)
      (atHead : evaluateOperator (evaluate fuel) head frame machine = .ok (.closure closure) middle)
      (inTurn : InTurn fuel frame operands middle values last)
      (counts : closure.parameters.length = values.length) :
      Calls ⟨fuel + 1, .list (head :: operands), frame, machine⟩
        ⟨fuel, closure.body, last.store.size,
          ⟨(last.store.enter closure.home closure.parameters values).2,
            last.log.push (.apply head.text values.length)⟩⟩

/-- A search that an evaluation makes itself does not find the name: which fault that is, and the machine then. An
    assignment is logged before the search for its name. -/
inductive Misses : Task → String → Fault → Machine → Prop where
  | symbol {fuel : Nat} {name : String} {frame : FrameId} {machine : Machine} (plain : truth? name = none)
      (missing : machine.store.lookup? frame name = none) :
      Misses ⟨fuel + 1, .symbol name, frame, machine⟩ name (.unboundVariable name) machine
  | head {fuel : Nat} {name : String} {operands : List Expr} {frame : FrameId} {machine : Machine}
      (ordinary : Keyword.ofName? name = none) (plain : truth? name = none)
      (missing : machine.store.lookup? frame name = none) :
      Misses ⟨fuel + 1, .list (.symbol name :: operands), frame, machine⟩ name (.unknownOperator name) machine
  | assignment {fuel : Nat} {head body : Expr} {name : String} {frame : FrameId} {value : Value}
      {machine reached : Machine} (named : Keyword.ofHead? head = some .assign)
      (evaluated : evaluate fuel body frame machine = .ok value reached)
      (missing : reached.store.nearest? frame name = none) :
      Misses ⟨fuel + 1, .list [head, .symbol name, body], frame, machine⟩ name (.unboundVariable name)
        ⟨reached.store, reached.log.push (.assign name value)⟩

/-!
### Stops on the way back
-/

section Forms

variable {fuel : Nat} {frame : FrameId} {machine : Machine}

/-- Where a part of a form stops, the form stops there. -/
theorem FormCalls.evaluateForm_eq {keyword : Keyword} {operands : List Expr} {part : Expr} {reached last : Machine}
    {stop : Stop} (inForm : FormCalls fuel frame machine keyword operands part reached)
    (stopped : evaluate fuel part frame reached = .error stop last) :
    evaluateForm (evaluate fuel) keyword operands frame machine = .error stop last := by
  cases inForm with
  | defined | assigned =>
      simp only [evaluateForm, bindingName, Eval.ofExcept_ok]
      rw [Eval.bind_ok (Eval.pure_apply _ _), Eval.bind_error stopped]
  | sequenced turn =>
      cases operands with
      | nil => cases turn
      | cons first rest => exact evaluateSequence_eq_error_iff.mpr ⟨part, reached, turn, stopped⟩
  | condition =>
      simp only [evaluateForm]
      exact Eval.bind_error stopped
  | @branch _ _ _ truth _ decided =>
      simp only [evaluateForm]
      rw [Eval.bind_ok decided]
      cases truth with
      | true => exact stopped
      | false => exact stopped

/-- An evaluation ends where an evaluation that it hands over to stops: the same stop, on the same machine. -/
theorem Calls.ending_eq {task part : Task} (calls : task.Calls part) {stop : Stop} {last : Machine}
    (stopped : part.ending = .error stop last) : task.ending = .error stop last := by
  cases calls with
  | form named inForm =>
      rw [ending, evaluate_form named]
      exact inForm.evaluateForm_eq stopped
  | operator =>
      rw [ending, evaluate_application rfl]
      exact Eval.bind_error (Eval.bind_error stopped)
  | operand plain atHead turn =>
      rw [ending, evaluate_application plain, Eval.bind_ok atHead]
      exact Eval.bind_error (evaluateOperands_eq_error_iff.mpr ⟨_, _, turn, stopped⟩)
  | call plain atHead inTurn counts =>
      rw [ending, evaluate_application plain, Eval.bind_ok atHead, Eval.bind_ok inTurn.evaluateOperands_eq,
        applyWith_closure counts]
      exact stopped

theorem Misses.ending_eq {task : Task} {name : String} {fault : Fault} {moment : Machine}
    (misses : task.Misses name fault moment) : task.ending = .error (.fault fault) moment := by
  cases misses with
  | symbol plain missing =>
      simp only [ending, evaluate, evaluateWith, evaluateSymbol, plain]
      exact Eval.lookup_none missing
  | head ordinary plain missing =>
      have unnamed : Keyword.ofHead? (.symbol name) = none := ordinary
      rw [ending, evaluate_application unnamed]
      apply Eval.bind_error
      simp only [evaluateOperator, evaluateHead, evaluateSymbol, plain]
      exact Eval.bind_error (Eval.lookup_none missing)
  | @assignment _ _ _ _ _ value _ reached named evaluated missing =>
      let logged : Machine := ⟨reached.store, reached.log.push (.assign name value)⟩
      have unassigned : Eval.assign _ name value logged = .error (.fault (.unboundVariable name)) logged :=
        Eval.assign_none missing
      rw [ending, evaluate_assignment named evaluated]
      exact Eval.bind_error unassigned

/-!
### From a report to the search
-/

/-- An evaluation ends with the report that a variable is unbound. -/
def Reports (task : Task) (name : String) (last : Machine) : Prop :=
  task.ending = .error (.fault (.unboundVariable name)) last

variable {name : String} {last : Machine}

/-- A form that binds a name may report a variable from its body, or after it. -/
theorem Reports.of_binding {keyword : Keyword} {target body : Expr} {next : String → Value → Eval Value}
    (ended : (do
      let bound ← Eval.ofExcept (bindingName keyword target)
      let value ← evaluate fuel body frame
      next bound value : Eval Value) machine = .error (.fault (.unboundVariable name)) last) :
    ∃ bound, target = .symbol bound ∧ (Reports ⟨fuel, body, frame, machine⟩ name last ∨
      ∃ value reached, evaluate fuel body frame machine = .ok value reached ∧
        next bound value reached = .error (.fault (.unboundVariable name)) last) := by
  cases target with
  | symbol bound =>
      simp only [bindingName, Eval.ofExcept_ok] at ended
      rw [Eval.bind_ok (Eval.pure_apply _ _)] at ended
      exact ⟨bound, rfl, Eval.bind_eq_error_iff.mp ended⟩
  | number | list => cases ended

/-- A form that reports a variable assigns it, or a part of the form reports it. -/
theorem Reports.of_form {head : Expr} {keyword : Keyword} {operands : List Expr}
    (named : Keyword.ofHead? head = some keyword)
    (reports : Reports ⟨fuel + 1, .list (head :: operands), frame, machine⟩ name last) :
    Misses ⟨fuel + 1, .list (head :: operands), frame, machine⟩ name (.unboundVariable name) last ∨
      ∃ part reached, FormCalls fuel frame machine keyword operands part reached ∧
        Reports ⟨fuel, part, frame, reached⟩ name last := by
  rw [Reports, ending, evaluate_form named] at reports
  unfold evaluateForm at reports
  split at reports
  · -- quote
    cases reports
  · -- define
    next target body =>
      obtain ⟨bound, rfl, inBody | ⟨value, reached, _, written⟩⟩ := Reports.of_binding reports
      · exact .inr ⟨body, machine, .defined, inBody⟩
      · cases written
  · -- set!
    next target body =>
      obtain ⟨bound, rfl, inBody | ⟨value, reached, evaluated, written⟩⟩ := Reports.of_binding reports
      · exact .inr ⟨body, machine, .assigned, inBody⟩
      · rw [Eval.bind_ok (Eval.record_apply _ _)] at written
        rcases Eval.bind_eq_error_iff.mp written with failed | ⟨_, _, _, answered⟩
        · obtain ⟨missing, reported, rfl⟩ := Eval.missing_of_assign_error failed
          cases reported
          exact .inl (.assignment named evaluated missing)
        · cases answered
  · -- begin
    next first rest =>
      obtain ⟨part, reached, turn, stopped⟩ := evaluateSequence_eq_error_iff.mp reports
      exact .inr ⟨part, reached, .sequenced turn, stopped⟩
  · -- if
    next condition consequent alternative =>
      rcases Eval.bind_eq_error_iff.mp reports with stopped | ⟨value, reached, decided, chosen⟩
      · exact .inr ⟨condition, machine, .condition, stopped⟩
      · split at chosen
        · exact .inr ⟨consequent, reached, .branch decided, chosen⟩
        · exact .inr ⟨alternative, reached, .branch decided, chosen⟩
        · cases chosen
  · -- lambda
    next parameters body =>
      cases shape : parametersOf parameters with
      | ok names =>
          rw [shape] at reports
          cases reports
      | error fault =>
          rw [shape] at reports
          cases reports
          exact absurd shape (Discipline.parametersOf_ne_unboundVariable parameters name)
  · -- lambda-one
    next parameter body =>
      cases shape : bindingName .lambdaOne parameter with
      | ok bound =>
          rw [shape] at reports
          cases reports
      | error fault =>
          rw [shape] at reports
          cases reports
          exact absurd shape (Discipline.bindingName_ne_unboundVariable .lambdaOne parameter name)
  · cases reports

/-- A name at the head that is not found is no variable, so a head that reports one is compound. -/
theorem Reports.of_evaluateOperator {head : Expr}
    (ended : evaluateOperator (evaluate fuel) head frame machine = .error (.fault (.unboundVariable name)) last) :
    ∃ items, head = .list items ∧ Reports ⟨fuel, head, frame, machine⟩ name last := by
  rw [evaluateOperator] at ended
  rcases Eval.bind_eq_error_iff.mp ended with stopped | ⟨callee, reached, _, checked⟩
  · cases head with
    | number value =>
        cases fuel with
        | zero => cases stopped
        | succ fuel => cases stopped
    | symbol operator =>
        obtain ⟨_, _, reported, _⟩ := evaluateSymbol_error stopped
        cases reported
    | list items => exact ⟨items, rfl, stopped⟩
  · split at checked
    · cases checked
    · cases checked

/-- A call reports a variable only from the body of a closure. -/
theorem Reports.of_applyWith {callee : Value} {values : List Value} {operator : String}
    (ended : applyWith (evaluate fuel) callee values operator machine =
      .error (.fault (.unboundVariable name)) last) :
    ∃ closure, callee = .closure closure ∧ closure.parameters.length = values.length ∧
      Reports ⟨fuel, closure.body, machine.store.size,
        ⟨(machine.store.enter closure.home closure.parameters values).2,
          machine.log.push (.apply operator values.length)⟩⟩ name last := by
  cases callee with
  | closure closure =>
      by_cases counts : closure.parameters.length = values.length
      · rw [applyWith_closure counts] at ended
        exact ⟨closure, rfl, counts, ended⟩
      · rw [applyWith, Eval.bind_ok (Eval.record_apply _ _)] at ended
        cases (Eval.bind_error (Eval.enter_of_counts_ne counts)).symm.trans ended
  | primitive primitive =>
      have passed : PassedOn (fun _ => True) (primitive.call values) :=
        primitive.call_passedOn fun _ _ _ _ => trivial
      rw [applyWith, Eval.bind_ok (Eval.record_apply _ _)] at ended
      cases called : primitive.call values with
      | ok value =>
          simp only [called] at ended
          cases ended
      | error fault =>
          simp only [called] at ended
          cases ended
          rw [called] at passed
          exact absurd rfl (passed name)
  | number | symbol | boolean | list => cases ended

/-- An application that reports a variable has it from its head, from an operand or from the body it calls. -/
theorem Reports.of_application {head : Expr} {operands : List Expr} (plain : Keyword.ofHead? head = none)
    (reports : Reports ⟨fuel + 1, .list (head :: operands), frame, machine⟩ name last) :
    ∃ part, Calls ⟨fuel + 1, .list (head :: operands), frame, machine⟩ part ∧ part.Reports name last := by
  rw [Reports, ending, evaluate_application plain] at reports
  rcases Eval.bind_eq_error_iff.mp reports with stopped | ⟨callee, middle, atHead, rest⟩
  · obtain ⟨items, rfl, inHead⟩ := Reports.of_evaluateOperator stopped
    exact ⟨_, .operator, inHead⟩
  · rcases Eval.bind_eq_error_iff.mp rest with stopped | ⟨values, reached, evaluated, called⟩
    · obtain ⟨part, reached, turn, inPart⟩ := evaluateOperands_eq_error_iff.mp stopped
      exact ⟨_, .operand plain atHead turn, inPart⟩
    · obtain ⟨closure, rfl, counts, inBody⟩ := Reports.of_applyWith called
      exact ⟨_, .call plain atHead (inTurn_of_evaluateOperands evaluated) counts, inBody⟩

/-- A reported variable was missed by the evaluation itself, or by one that it handed over to. -/
theorem Reports.cases_misses {task : Task} (reports : task.Reports name last) :
    task.Misses name (.unboundVariable name) last ∨ ∃ part, task.Calls part ∧ part.Reports name last := by
  obtain ⟨fuel, expression, frame, machine⟩ := task
  cases fuel with
  | zero => cases reports
  | succ fuel =>
      cases expression with
      | number value => cases reports
      | symbol missed =>
          obtain ⟨plain, missing, reported, rfl⟩ := evaluateSymbol_error reports
          cases reported
          exact .inl (.symbol plain missing)
      | list items =>
          cases items with
          | nil => cases reports
          | cons head operands =>
              cases named : Keyword.ofHead? head with
              | some keyword =>
                  rcases Reports.of_form named reports with misses | ⟨part, reached, inForm, inPart⟩
                  · exact .inl misses
                  · exact .inr ⟨_, .form named inForm, inPart⟩
              | none => exact .inr (Reports.of_application named reports)

end Forms

/-!
### Down to the search and back
-/

theorem Calls.fuel_lt {task part : Task} (calls : task.Calls part) : part.fuel < task.fuel := by
  cases calls <;> exact Nat.lt_succ_self _

/-- A reported variable is traced to the search that missed it, by a row of evaluations that handed over. -/
theorem Reports.exists_misses {task : Task} {name : String} {last : Machine} (reports : task.Reports name last) :
    ∃ origin, Relation.ReflTransGen Calls task origin ∧ origin.Misses name (.unboundVariable name) last := by
  -- Each handover leaves one level less of the depth that is allowed, so the way down ends.
  rcases reports.cases_misses with misses | ⟨part, calls, inPart⟩
  · exact ⟨task, .refl, misses⟩
  · have deeper := calls.fuel_lt
    obtain ⟨origin, below, misses⟩ := inPart.exists_misses
    exact ⟨origin, .head calls below, misses⟩
termination_by task.fuel
decreasing_by exact deeper

/-- A stop is passed on by a whole row of evaluations, without a change of the machine. -/
theorem ending_eq_of_reflTransGen {task origin : Task} (below : Relation.ReflTransGen Calls task origin)
    {stop : Stop} {last : Machine} (stopped : origin.ending = .error stop last) :
    task.ending = .error stop last := by
  induction below using Relation.ReflTransGen.head_induction_on with
  | refl => exact stopped
  | head calls _ inductionHypothesis => exact calls.ending_eq inductionHypothesis

end Task

/-!
### The global frame
-/

/-- A frame of a well-formed store with one outermost frame. -/
structure Anchored (frame : FrameId) (machine : Machine) : Prop where
  safe : existence.Safe machine.store
  rooted : machine.store.Rooted
  made : frame < machine.store.size

namespace Anchored

variable {fuel : Nat} {frame : FrameId} {machine reached : Machine}

/-- The same frame at a later point. -/
theorem later (anchored : Anchored frame machine) (kept : existence.Keeps machine.store reached.store) :
    Anchored frame reached :=
  ⟨kept.safe, anchored.rooted.extends kept.grown, Nat.lt_of_lt_of_le anchored.made kept.grown.size_le⟩

theorem keeps_evaluate (anchored : Anchored frame machine) {expression : Expr} {value : Value}
    (evaluated : evaluate fuel expression frame machine = .ok value reached) :
    existence.Keeps machine.store reached.store := by
  have allows := Discipline.evaluate_respects existence_lawful fuel expression frame machine anchored.safe
    anchored.made
  rw [evaluated] at allows
  exact allows.keeps

theorem keeps_turnOf {expressions : List Expr} {part : Expr}
    (turn : TurnOf fuel frame expressions machine part reached) (anchored : Anchored frame machine) :
    existence.Keeps machine.store reached.store := by
  induction turn with
  | now => exact .refl anchored.safe
  | later first _ inductionHypothesis =>
      have kept := anchored.keeps_evaluate first
      exact kept.trans (inductionHypothesis (anchored.later kept))

theorem keeps_formCalls (anchored : Anchored frame machine) {keyword : Keyword} {operands : List Expr} {part : Expr}
    (inForm : Task.FormCalls fuel frame machine keyword operands part reached) :
    existence.Keeps machine.store reached.store := by
  cases inForm with
  | defined | assigned | condition => exact .refl anchored.safe
  | sequenced turn => exact keeps_turnOf turn anchored
  | branch decided => exact anchored.keeps_evaluate decided

theorem keeps_evaluateOperator (anchored : Anchored frame machine) {head : Expr} {callee : Value}
    (atHead : evaluateOperator (evaluate fuel) head frame machine = .ok callee reached) :
    existence.Keeps machine.store reached.store ∧ reached.store.KnowsAll callee := by
  have truthful : Discipline.Truthful .unknownOperator := fun _ _ same => nomatch same
  have allows : existence.Allows machine.store (fun value store => value.Each (existence.trusts store))
      (evaluateOperator (evaluate fuel) head frame machine) :=
    Discipline.evaluateOperatorAs_allows truthful existence_lawful
      (Discipline.evaluate_respects existence_lawful fuel) anchored.safe anchored.made
  rw [atHead] at allows
  exact allows

theorem keeps_inTurn (anchored : Anchored frame machine) {operands : List Expr} {values : List Value}
    (inTurn : InTurn fuel frame operands machine values reached) :
    existence.Keeps machine.store reached.store ∧ ∀ value ∈ values, reached.store.KnowsAll value := by
  have allows := Discipline.evaluateOperands_allows existence_lawful
    (Discipline.evaluate_respects existence_lawful fuel) frame operands machine anchored.safe
    fun _ _ => anchored.made
  rw [inTurn.evaluateOperands_eq] at allows
  exact allows

/-- The new frame of a call. -/
theorem enter (anchored : Anchored frame machine) {closure : Closure} (known : machine.store.Knows closure)
    {values : List Value} (each : ∀ value ∈ values, machine.store.KnowsAll value) (log : Array Event) :
    Anchored machine.store.size ⟨(machine.store.enter closure.home closure.parameters values).2, log⟩ where
  safe := (existence_lawful.keeps_enter anchored.safe known.1 trivial closure.parameters each trivial).safe
  rooted := anchored.rooted.extends (Store.Extends.enter machine.store closure.home closure.parameters values)
  made := by simp

/-- Evaluations that are handed over to are made in such frames as well. -/
theorem calls {task part : Task} (anchored : Anchored task.frame task.machine) (calls : task.Calls part) :
    Anchored part.frame part.machine := by
  cases calls with
  | form _ inForm => exact anchored.later (anchored.keeps_formCalls inForm)
  | operator => exact anchored
  | operand _ atHead turn =>
      have atOperands := anchored.later (anchored.keeps_evaluateOperator atHead).1
      exact atOperands.later (keeps_turnOf turn atOperands)
  | call _ atHead inTurn _ =>
      obtain ⟨kept, callee⟩ := anchored.keeps_evaluateOperator atHead
      obtain ⟨keptOperands, operands⟩ := (anchored.later kept).keeps_inTurn inTurn
      have known := ((Value.each_closure _).mp callee).extends keptOperands.grown
      exact ((anchored.later kept).later keptOperands).enter known operands _

theorem reflTransGen {task origin : Task} (anchored : Anchored task.frame task.machine)
    (below : Relation.ReflTransGen Task.Calls task origin) : Anchored origin.frame origin.machine := by
  induction below with
  | refl => exact anchored
  | tail _ calls inductionHypothesis => exact inductionHypothesis.calls calls

/-- A name that is missed in one frame is not bound in the global frame. -/
theorem unbound (anchored : Anchored frame machine) {name : String} (missing : ¬ machine.store.Binds frame name) :
    machine.store.bindsLocally Store.globalFrame name = false := by
  have path := Store.path_chain anchored.safe.ordered frame anchored.made
  rw [Bool.eq_false_iff]
  intro bound
  exact missing ⟨Store.globalFrame, anchored.rooted.mem_path path, bound⟩

theorem unbound_of_misses {task : Task} (anchored : Anchored task.frame task.machine) {name : String}
    {fault : Fault} {moment : Machine} (misses : task.Misses name fault moment) :
    moment.store.bindsLocally Store.globalFrame name = false := by
  cases misses with
  | symbol _ missing => exact anchored.unbound (Store.lookup?_eq_none_iff.mp missing)
  | head _ _ missing => exact anchored.unbound (Store.lookup?_eq_none_iff.mp missing)
  | assignment _ evaluated missing =>
      exact (anchored.later (anchored.keeps_evaluate evaluated)).unbound (Store.nearest?_eq_none_iff.mp missing)

end Anchored

/-!
### Programs
-/

/-- A program, run in the global frame, comes to a search for a name that fails: one of its forms has its turn, and
    by a row of evaluations that hand over leads to the one that misses the name. -/
def SearchFails (fuel : Nat) (source text : String) (machine : Machine) (name : String) (fault : Fault)
    (moment : Machine) : Prop :=
  ∃ forms form reached origin, read source text = .ok forms ∧
    TurnOf fuel Store.globalFrame forms machine form reached ∧
    Relation.ReflTransGen Task.Calls ⟨fuel, form, Store.globalFrame, reached⟩ origin ∧
    origin.Misses name fault moment

/-- A missing name is reported at once and truly: from the moment of the search to the end of the run nothing is added
    but the report of the form that failed, and then the global frame does not bind the name. -/
structure ReportedFrom (moment : Machine) (name : String) (fault : Fault) (later : Machine) : Prop where
  at_once : ∃ index form, later = moment.report index form fault
  unbound : later.store.bindsLocally Store.globalFrame name = false

section Programs

variable {fuel : Nat} {source text name : String} {machine moment later : Machine} {fault : Fault}

/-- A program text fails in evaluation if it is read and its forms fail. -/
theorem runText_eq_fault_iff {frame : FrameId} :
    runText fuel source text frame machine = .error (.fault fault) later ↔
      ∃ forms, read source text = .ok forms ∧
        evaluateForms fuel forms frame machine = .error (.fault fault) later := by
  unfold runText
  cases read source text with
  | error error =>
      constructor
      · intro failed
        cases failed
      · rintro ⟨_, same, _⟩
        cases same
  | ok forms =>
      simp only [Except.ok.injEq, exists_eq_left', runForms, Run.ofEval, EStateM.adaptExcept]
      cases evaluateForms fuel forms frame machine with
      | ok value final => simp
      | error stop final => cases stop <;> simp [Failure.ofStop]

/-- A variable that a program reports was missed by a search, and the program reports it at once. -/
theorem exists_searchFails
    (failed : runText fuel source text Store.globalFrame machine = .error (.fault (.unboundVariable name)) later) :
    ∃ moment index form, SearchFails fuel source text machine name (.unboundVariable name) moment ∧
      later = moment.report index form (.unboundVariable name) := by
  obtain ⟨forms, reads, formsFailed⟩ := runText_eq_fault_iff.mp failed
  obtain ⟨form, reached, moment, index, turn, stopped, same⟩ := exists_turnOf_of_evaluateFormsFrom formsFailed
  have reports : Task.Reports ⟨fuel, form, Store.globalFrame, reached⟩ name moment := stopped
  obtain ⟨origin, below, misses⟩ := reports.exists_misses
  exact ⟨moment, index, form, ⟨forms, form, reached, origin, reads, turn, below, misses⟩, same⟩

/-- A program that comes to a search that fails reports that name at once. -/
theorem SearchFails.runText_eq (fails : SearchFails fuel source text machine name fault moment) :
    ∃ index form, runText fuel source text Store.globalFrame machine =
      .error (.fault fault) (moment.report index form fault) := by
  obtain ⟨forms, form, reached, origin, reads, turn, below, misses⟩ := fails
  have stopped := Task.ending_eq_of_reflTransGen below misses.ending_eq
  obtain ⟨index, formsFailed⟩ := turn.evaluateFormsFrom_fault stopped 0 (.list [])
  exact ⟨index, form, runText_eq_fault_iff.mpr ⟨forms, reads, formsFailed⟩⟩

/-- Where a search has failed, the global frame, at the end of every chain, does not bind the name. -/
theorem SearchFails.unbound (fails : SearchFails fuel source text machine name fault moment)
    (anchored : Anchored Store.globalFrame machine) :
    moment.store.bindsLocally Store.globalFrame name = false := by
  obtain ⟨forms, form, reached, origin, _, turn, below, misses⟩ := fails
  have atForm := anchored.later (Anchored.keeps_turnOf turn anchored)
  have atOrigin : Anchored origin.frame origin.machine := atForm.reflTransGen below
  exact atOrigin.unbound_of_misses misses

end Programs

/-- The report of a missing name is true when it comes. Where a program that is run after any requests fails because a
    variable is unbound, a search for that variable had failed; and wherever a search fails, for a variable, for the
    name of an assignment or for a name at the head of an application, the program fails with that fault. Nothing is
    bound, assigned or called between the search and the end of the run, and the global frame, as the caller then
    sees it, does not bind the name. -/
theorem missing_name_reported {start client : Client} (initial : start.Initial) (run : start.Run client)
    (fuel : Nat) (source text : String) :
    (∀ name later,
      runText fuel source text Store.globalFrame client.machine = .error (.fault (.unboundVariable name)) later →
        ∃ moment, SearchFails fuel source text client.machine name (.unboundVariable name) moment ∧
          ReportedFrom moment name (.unboundVariable name) later) ∧
    ∀ name fault moment, SearchFails fuel source text client.machine name fault moment →
      ∃ later, runText fuel source text Store.globalFrame client.machine = .error (.fault fault) later ∧
        ReportedFrom moment name fault later := by
  have sound := run.sound initial
  have anchored : Anchored Store.globalFrame client.machine :=
    ⟨existence_safe_iff.mpr sound.wellFormed, sound.rooted, sound.rooted.made⟩
  refine ⟨?_, ?_⟩
  · intro name later failed
    obtain ⟨moment, index, form, fails, rfl⟩ := exists_searchFails failed
    exact ⟨moment, fails, ⟨index, form, rfl⟩, fails.unbound anchored⟩
  · intro name fault moment fails
    obtain ⟨index, form, failed⟩ := fails.runText_eq
    exact ⟨_, failed, ⟨index, form, rfl⟩, fails.unbound anchored⟩

/-- An assignment in the body of a procedure, to a name that is bound nowhere; and a name at the head of an
    application that is bound nowhere, in a sequence behind a definition, which stays. -/
theorem missing_name_reported_inside :
    (∃ later, runText 9 "a" "(define f (lambda (y) (set! x y))) (f car)" Store.globalFrame (.ofStore .fresh) =
        .error (.fault (.unboundVariable "x")) later ∧
      later.store.bindsLocally Store.globalFrame "x" = false) ∧
    ∃ later, runText 9 "b" "(begin (define y car) (g y))" Store.globalFrame (.ofStore .fresh) =
        .error (.fault (.unknownOperator "g")) later ∧
      later.store.bindsLocally Store.globalFrame "g" = false ∧
      later.store.bindsLocally Store.globalFrame "y" = true := by
  have reported := missing_name_reported .fresh .here 9
  refine ⟨?_, ?_⟩
  · have reads : read "a" "(define f (lambda (y) (set! x y))) (f car)" =
        .ok [.list [.symbol "define", .symbol "f", .list [.symbol "lambda", .list [.symbol "y"],
          .list [.symbol "set!", .symbol "x", .symbol "y"]]], .list [.symbol "f", .symbol "car"]] := rfl
    have failed : runText 9 "a" "(define f (lambda (y) (set! x y))) (f car)" Store.globalFrame (.ofStore .fresh) =
        .error (.fault (.unboundVariable "x")) _ := runText_eq_fault_iff.mpr ⟨_, reads, rfl⟩
    obtain ⟨moment, _, _, unbound⟩ := (reported "a" _).1 "x" _ failed
    exact ⟨_, failed, unbound⟩
  · have reads : read "b" "(begin (define y car) (g y))" =
        .ok [.list [.symbol "begin", .list [.symbol "define", .symbol "y", .symbol "car"],
          .list [.symbol "g", .symbol "y"]]] := rfl
    have turn : TurnOf 8 Store.globalFrame
        [.list [.symbol "define", .symbol "y", .symbol "car"], .list [.symbol "g", .symbol "y"]]
        (.ofStore .fresh) (.list [.symbol "g", .symbol "y"]) _ := .later (evaluate_define rfl) (.now _ _ _)
    have fails : SearchFails 9 "b" "(begin (define y car) (g y))" (.ofStore .fresh) "g" (.unknownOperator "g") _ :=
      ⟨_, _, _, _, reads, .now _ _ _, .single (.form (by decide) (.sequenced turn)),
        .head (by decide) (by decide) rfl⟩
    obtain ⟨_, failed, ⟨_, _, rfl⟩, unbound⟩ := (reported "b" _).2 "g" _ _ fails
    exact ⟨_, failed, unbound, rfl⟩

/-- A name is reported as missing where it was searched for, and this need not be where the caller is. A caller makes
    the procedure `(lambda () x)` in one environment and hands it, as `f`, to another, which binds `x` as well. Run in
    the global frame of the second, `(f)` reports that `x` is unbound: so it is in the first, and not in the frame of
    the caller. Within one environment this can happen too, to a caller that runs `(f)` in an inner frame which binds
    `x`, when the procedure is of the global frame. -/
theorem missing_name_bound_for_caller :
    let closing : Expr := .list [.symbol "lambda", .list [], .symbol "x"]
    (let first := Client.create ⟨.ofStore .vacant, [], []⟩ []
      let given := first.perform (.evaluate 1 closing 0)
      let client := given.create [("f", .closure ⟨0, [], .symbol "x", 0⟩), ("x", .boolean true)]
      client.Reached ∧ client.frames = [1, 0] ∧ client.store.parent? 1 = none ∧
        ∃ later, runText 9 "a" "(f)" 1 client.machine = .error (.fault (.unboundVariable "x")) later ∧
          later.store.bindsLocally 1 "x" = true ∧ later.store.bindsLocally 0 "x" = false) ∧
    let start : Client := ⟨.ofStore .fresh, [Store.globalFrame], []⟩
    let defined := start.perform (.evaluate 2 (.list [.symbol "define", .symbol "f", closing]) Store.globalFrame)
    let client := defined.perform (.extend Store.globalFrame ["x"] [.boolean true] "f")
    start.Run client ∧ client.frames = [1, Store.globalFrame] ∧
      ∃ later, runText 9 "a" "(f)" 1 client.machine = .error (.fault (.unboundVariable "x")) later ∧
        later.store.bindsLocally 1 "x" = true ∧ later.store.bindsLocally Store.globalFrame "x" = false := by
  -- The clients get no names here, since what they hold is found by computation, and that is slow behind a name.
  have reads : read "a" "(f)" = .ok [.list [.symbol "f"]] := rfl
  have made : Client.Reached (Client.create ⟨.ofStore .vacant, [], []⟩ []) :=
    .create .start [] fun _ member => nomatch member
  have closed := made.step (.evaluate 1 (.list [.symbol "lambda", .list [], .symbol "x"]) 0)
    ⟨List.forall_mem_singleton.mpr List.mem_cons_self, fun _ member => nomatch member⟩
  have shared := closed.create [("f", .closure ⟨0, [], .symbol "x", 0⟩), ("x", .boolean true)]
    (List.forall_mem_cons.mpr ⟨fun _ within => ⟨_, List.mem_cons_self, within⟩,
      List.forall_mem_singleton.mpr (Value.each_boolean true)⟩)
  have defined : Client.Run ⟨.ofStore .fresh, [Store.globalFrame], []⟩ (Client.perform
      ⟨.ofStore .fresh, [Store.globalFrame], []⟩ (.evaluate 2 (.list [.symbol "define", .symbol "f",
        .list [.symbol "lambda", .list [], .symbol "x"]]) Store.globalFrame)) :=
    .step .here ⟨List.forall_mem_singleton.mpr List.mem_cons_self, fun _ member => nomatch member⟩
  have inside : Client.Run ⟨.ofStore .fresh, [Store.globalFrame], []⟩ (Client.perform _
      (.extend Store.globalFrame ["x"] [.boolean true] "f")) :=
    .step defined
      ⟨List.forall_mem_singleton.mpr List.mem_cons_self, List.forall_mem_singleton.mpr (Value.each_boolean true)⟩
  exact ⟨⟨shared, rfl, rfl, _, runText_eq_fault_iff.mpr ⟨_, reads, rfl⟩, rfl, rfl⟩,
    inside, rfl, _, runText_eq_fault_iff.mpr ⟨_, reads, rfl⟩, rfl, rfl⟩

end LexLisp
