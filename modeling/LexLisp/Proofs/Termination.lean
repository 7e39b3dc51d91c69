/-
Module: LexLisp.Proofs.Termination
Purpose: Evaluation without procedures. Only a call of a closure evaluates something that is not part of the
  expression. Where a store holds no closure and an expression makes none, no evaluation ever has one to call: it
  goes no deeper than the expression nests, so it ends, it makes no frame, and it leaves a store without closures.
Main exports: Expr.ProcedureFree, Store.ClosureFree, Settles, Evaluator.Completes, evaluateWith_completes,
  evaluate_terminates
-/
import LexLisp.Proofs.Anatomy
import LexLisp.Proofs.Fuel

namespace LexLisp

/-- No form in an expression makes a procedure, quoted data apart. -/
def Expr.ProcedureFree (expression : Expr) : Prop :=
  .lambda ∉ expression.keywords ∧ .lambdaOne ∉ expression.keywords

instance (expression : Expr) : Decidable expression.ProcedureFree :=
  inferInstanceAs (Decidable (_ ∧ _))

/-- There is no closure in a value, at any depth of lists. -/
abbrev Value.ClosureFree (value : Value) : Prop := value.Each fun _ => False

/-- There is no closure in any value that a store binds. -/
abbrev Store.ClosureFree (store : Store) : Prop := store.Each fun _ => False

/-!
### Actions that end by themselves

What the induction carries is said of endings, since `define` and `set!` change what the heads of later
applications are: that no closure is there to be called has to hold between any two steps.
-/

/-- An action has ended and was not cut off; it made no frame, it left no closure in the store, and what it yields
    is good. -/
def Settles {α : Type} (before : Store) (good : α → Prop) : Ending α → Prop :=
  Ending.Meets
    (fun value later => (later.store.size = before.size ∧ later.store.ClosureFree) ∧ good value)
    (fun stop later => (later.store.size = before.size ∧ later.store.ClosureFree) ∧ stop ≠ .outOfFuel)

/-- An evaluator completes an expression in every frame of every store without closures. -/
def Evaluator.Completes (evaluator : Evaluator) (expression : Expr) : Prop :=
  ∀ (frame : FrameId) (machine : Machine), machine.store.ClosureFree →
    Settles machine.store Value.ClosureFree (evaluator expression frame machine)

section Endings

variable {α β : Type} {good : α → Prop} {machine : Machine}

theorem settles_ok {value : α} (free : machine.store.ClosureFree) (known : good value) :
    Settles machine.store good (.ok value machine) :=
  ⟨⟨rfl, free⟩, known⟩

theorem settles_fault (free : machine.store.ClosureFree) (fault : Fault) :
    Settles machine.store good (.error (.fault fault) machine : Ending α) :=
  ⟨⟨rfl, free⟩, fun same => nomatch same⟩

/-- Two actions in sequence. -/
theorem Settles.bind {before : Store} {middle : β → Prop} {action : Eval β} {next : β → Eval α}
    (first : Settles before middle (action machine))
    (second : ∀ value later, later.store.ClosureFree → middle value →
      Settles later.store good (next value later)) :
    Settles before good ((action >>= next) machine) := by
  apply Ending.Meets.bind first
  rintro value later ⟨⟨size, free⟩, known⟩
  apply Ending.Meets.weaken (second value later free known)
  · rintro result last ⟨⟨lastSize, lastFree⟩, good⟩
    exact ⟨⟨lastSize.trans size, lastFree⟩, good⟩
  · rintro stop last ⟨⟨lastSize, lastFree⟩, ended⟩
    exact ⟨⟨lastSize.trans size, lastFree⟩, ended⟩

/-- A computation without effects ends, and has not touched the store. -/
theorem settles_ofExcept {result : Except Fault α} (free : machine.store.ClosureFree)
    (known : ∀ value, result = .ok value → good value) :
    Settles machine.store good (Eval.ofExcept result machine) := by
  cases result with
  | ok value => exact settles_ok free (known value rfl)
  | error fault => exact settles_fault free fault

theorem settles_record {event : Event} (free : machine.store.ClosureFree) :
    Settles machine.store (fun _ => True) (Eval.record event machine) :=
  ⟨⟨rfl, free⟩, trivial⟩

/-- A value without closures may be bound in a store without closures. -/
theorem settles_define (free : machine.store.ClosureFree) (frame : FrameId) (name : String) {value : Value}
    (known : value.ClosureFree) : Settles machine.store (fun _ => True) (Eval.define frame name value machine) :=
  ⟨⟨Store.size_define .., free.define frame name known⟩, trivial⟩

/-- It may be assigned, if there is a binding, and otherwise the assignment fails. -/
theorem settles_assign (free : machine.store.ClosureFree) (frame : FrameId) (name : String) {value : Value}
    (known : value.ClosureFree) : Settles machine.store (fun _ => True) (Eval.assign frame name value machine) := by
  cases found : machine.store.nearest? frame name with
  | some link =>
      rw [Eval.assign_some found]
      exact settles_define free link name known
  | none =>
      rw [Eval.assign_none found]
      exact settles_fault free _

end Endings

/-!
### Steps of evaluation
-/

section Steps

variable {inner : Evaluator} {frame : FrameId} {machine : Machine}

/-- A symbol is a tag, is found, or is missed. -/
theorem evaluateSymbol_settles (missing : String → Fault) (name : String) (free : machine.store.ClosureFree) :
    Settles machine.store Value.ClosureFree (evaluateSymbol missing name frame machine) := by
  unfold evaluateSymbol
  cases truth? name with
  | some value => exact settles_ok free (Value.each_boolean value)
  | none =>
      cases found : machine.store.lookup? frame name with
      | some value =>
          simp only [Eval.lookup_some found]
          exact settles_ok free (free.lookup? found)
      | none =>
          simp only [Eval.lookup_none found]
          exact settles_fault free _

/-- Operands in turn end if each of them does. -/
theorem evaluateOperands_settles (frame : FrameId) :
    ∀ (operands : List Expr) (machine : Machine), (∀ operand ∈ operands, inner.Completes operand) →
      machine.store.ClosureFree →
        Settles machine.store (fun values => ∀ value ∈ values, value.ClosureFree)
          (evaluateOperands inner frame operands machine)
  | [], _, _, free => settles_ok free fun _ member => nomatch member
  | operand :: operands, machine, completes, free => by
      obtain ⟨first, others⟩ := List.forall_mem_cons.mp completes
      unfold evaluateOperands
      apply Settles.bind (first frame machine free)
      intro value middle freeMiddle known
      apply Settles.bind (evaluateOperands_settles frame operands middle others freeMiddle)
      intro values later freeLater rest
      exact settles_ok freeLater (List.forall_mem_cons.mpr ⟨known, rest⟩)

/-- So do the expressions of a sequence. -/
theorem evaluateSequence_settles (frame : FrameId) :
    ∀ (rest : List Expr) (first : Expr) (machine : Machine), (∀ part ∈ first :: rest, inner.Completes part) →
      machine.store.ClosureFree →
        Settles machine.store Value.ClosureFree (evaluateSequence inner frame first rest machine)
  | [], first, machine, completes, free => completes first List.mem_cons_self frame machine free
  | next :: rest, first, machine, completes, free => by
      obtain ⟨here, others⟩ := List.forall_mem_cons.mp completes
      unfold evaluateSequence
      apply Settles.bind (here frame machine free)
      intro _ middle freeMiddle _
      exact evaluateSequence_settles frame rest next middle others freeMiddle

/-- A call evaluates nothing: what is called is no closure. -/
theorem applyWith_settles {callee : Value} {operands : List Value} (operator : String)
    (free : machine.store.ClosureFree) (known : callee.ClosureFree)
    (each : ∀ operand ∈ operands, operand.ClosureFree) :
    Settles machine.store Value.ClosureFree (applyWith inner callee operands operator machine) := by
  unfold applyWith
  apply Settles.bind (settles_record free)
  intro _ logged freeLogged _
  cases callee with
  | primitive primitive =>
      apply settles_ofExcept freeLogged
      intro value called
      have passed := primitive.call_passedOn each
      rwa [called] at passed
  | closure closure => exact ((Value.each_closure closure).mp known).elim
  | number | symbol | boolean | list => exact settles_fault freeLogged _

/-- So does the head of an application. -/
theorem evaluateOperator_settles {head : Expr} (completes : inner.Completes head) (free : machine.store.ClosureFree) :
    Settles machine.store Value.ClosureFree (evaluateOperator inner head frame machine) := by
  unfold evaluateOperator
  have atHead : Settles machine.store Value.ClosureFree (evaluateHead inner head frame machine) := by
    cases head with
    | symbol name => exact evaluateSymbol_settles _ name free
    | number | list => exact completes frame machine free
  apply Settles.bind atHead
  intro callee later freeLater known
  split
  · exact settles_ok freeLater known
  · exact settles_fault freeLater _

/-- What `define` and `set!` share: a name, the value of the body, an event, and then the write. -/
theorem binding_settles {keyword : Keyword} {target body : Expr} {event : String → Value → Event}
    {write : String → Value → Eval Unit} (completes : ∀ name, target = .symbol name → inner.Completes body)
    (free : machine.store.ClosureFree)
    (writes : ∀ name value (later : Machine), later.store.ClosureFree → value.ClosureFree →
      Settles later.store (fun _ => True) (write name value later)) :
    Settles machine.store Value.ClosureFree
      ((do
        let name ← Eval.ofExcept (bindingName keyword target)
        let value ← inner body frame
        Eval.record (event name value)
        write name value
        pure (.symbol name) : Eval Value) machine) := by
  cases target with
  | symbol name =>
      apply Settles.bind (completes name rfl frame machine free)
      intro value later freeLater known
      apply Settles.bind (settles_record freeLater)
      intro _ logged freeLogged _
      apply Settles.bind (writes name value logged freeLogged known)
      intro _ last freeLast _
      exact settles_ok freeLast (Value.each_symbol name)
  | number | list => exact settles_fault free _

/-- A special form ends if its parts do, and leaves no closure unless it makes a procedure. -/
theorem evaluateForm_settles {keyword : Keyword} {operands : List Expr}
    (parts : ∀ part, FormPart keyword operands part → inner.Completes part)
    (notLambda : keyword ≠ .lambda) (notLambdaOne : keyword ≠ .lambdaOne) (free : machine.store.ClosureFree) :
    Settles machine.store Value.ClosureFree (evaluateForm inner keyword operands frame machine) := by
  unfold evaluateForm
  split
  · -- quote
    next body => exact settles_ok free (Value.each_ofDatum body)
  · -- define
    next target body =>
      apply binding_settles (fun name same => parts body (by subst same; exact .defined)) free
      exact fun name value later freeLater known => settles_define freeLater frame name known
  · -- set!
    next target body =>
      apply binding_settles (fun name same => parts body (by subst same; exact .assigned)) free
      exact fun name value later freeLater known => settles_assign freeLater frame name known
  · -- begin
    next first rest =>
      exact evaluateSequence_settles frame rest first machine
        (fun part member => parts part (.sequenced member)) free
  · -- if
    next condition consequent alternative =>
      apply Settles.bind (parts condition .condition frame machine free)
      intro value later freeLater _
      split
      · exact parts consequent .consequent frame later freeLater
      · exact parts alternative .alternative frame later freeLater
      · exact settles_fault freeLater _
  · exact absurd rfl notLambda
  · exact absurd rfl notLambdaOne
  · exact settles_fault free _

/-- A step completes an expression that makes no procedure, if what is inside completes the parts. -/
theorem evaluateWith_completes {whole : Expr} (procedureFree : whole.ProcedureFree)
    (parts : ∀ part, Part whole part → inner.Completes part) :
    Evaluator.Completes (evaluateWith inner) whole := by
  intro frame machine free
  unfold evaluateWith
  split
  · exact settles_ok free (Value.each_number _)
  · exact evaluateSymbol_settles _ _ free
  · exact settles_fault free _
  · next head operands =>
      cases named : Keyword.ofHead? head with
      | some keyword =>
          have present := Expr.mem_keywords_of_named named operands
          apply evaluateForm_settles (fun part inForm => parts part (.form named inForm)) _ _ free
          · rintro rfl
            exact procedureFree.1 present
          · rintro rfl
            exact procedureFree.2 present
      | none =>
          apply Settles.bind (evaluateOperator_settles (parts head (.operator named)) free)
          intro callee middle freeMiddle known
          apply Settles.bind (evaluateOperands_settles frame operands middle
            (fun operand member => parts operand (.operand named member)) freeMiddle)
          intro values later freeLater each
          exact applyWith_settles head.text freeLater known each

end Steps

/-- Enough fuel for the depth of an expression completes it. The induction is on the fuel: what a step evaluates is
    part of the expression, hence less deep. -/
theorem evaluate_completes {fuel : Nat} {expression : Expr} (enough : expression.height < fuel)
    (procedureFree : expression.ProcedureFree) : Evaluator.Completes (evaluate fuel) expression := by
  induction fuel generalizing expression with
  | zero => exact absurd enough (Nat.not_lt_zero _)
  | succ fuel inductionHypothesis =>
      apply evaluateWith_completes procedureFree
      intro part inside
      have shallower := Expr.height_lt_of_part inside
      have fewer := Expr.keywords_subset_of_part inside
      exact inductionHypothesis (Nat.lt_of_lt_of_le shallower (Nat.le_of_lt_succ enough))
        ⟨fun present => procedureFree.1 (fewer present), fun present => procedureFree.2 (fewer present)⟩

/-- In a store without closures an expression that makes no procedure has one ending, with a value or with a fault,
    which it reaches by a recursion no deeper than the expression nests: fuel for that many levels inside the
    outermost one is enough, and more changes nothing. No frame is made, and there is no closure afterwards, in
    the store or in the value. -/
theorem evaluate_terminates {expression : Expr} {frame : FrameId} {machine : Machine}
    (procedureFree : expression.ProcedureFree) (free : machine.store.ClosureFree) :
    ∃ ending : Ending Value, ending.Finished ∧
      (∀ fuel, expression.height < fuel → evaluate fuel expression frame machine = ending) ∧
      ending.store.size = machine.store.size ∧ ending.store.ClosureFree ∧
      ∀ value, ending.outcome = .ok value → value.ClosureFree := by
  have settles := evaluate_completes (Nat.lt_succ_self _) procedureFree frame machine free
  have enough : ∀ fuel, expression.height < fuel →
      Ending.Finished (evaluate (expression.height + 1) expression frame machine) →
        evaluate fuel expression frame machine = evaluate (expression.height + 1) expression frame machine :=
    fun fuel more finished => evaluate_outlasts more expression frame machine finished
  cases ended : evaluate (expression.height + 1) expression frame machine with
  | ok value later =>
      rw [ended] at settles enough
      obtain ⟨⟨size, left⟩, known⟩ := settles
      refine ⟨.ok value later, by simp, fun fuel more => enough fuel more (by simp), size, left, ?_⟩
      rintro _ ⟨rfl⟩
      exact known
  | error stop later =>
      rw [ended] at settles enough
      obtain ⟨⟨size, left⟩, ended⟩ := settles
      have finished : Ending.Finished (.error stop later : Ending Value) := by simpa using ended
      exact ⟨_, finished, fun fuel more => enough fuel more finished, size, left, fun _ same => nomatch same⟩

/-- A primitive is bound to a name, then another one is assigned to it, and that one is called with a quoted form. -/
theorem evaluate_terminates_rebound :
    let expression : Expr := .list [.symbol "begin",
      .list [.symbol "define", .symbol "f", .symbol "car"],
      .list [.symbol "set!", .symbol "f", .symbol "cons"],
      .list [.symbol "f", .symbol "#t", .list [.symbol "quote", .list [.symbol "lambda"]]]]
    expression.ProcedureFree ∧ expression.height = 4 ∧ Store.fresh.ClosureFree ∧
      ∀ fuel, 4 < fuel → (Ending.outcome (evaluate fuel expression Store.globalFrame (.ofStore .fresh))).map
        Value.text = .ok "(#t lambda)" := by
  intro expression
  have procedureFree : expression.ProcedureFree := by decide
  have free : Store.fresh.ClosureFree := Store.each_fresh
  obtain ⟨ending, _, reached, _⟩ :=
    @evaluate_terminates expression Store.globalFrame (.ofStore .fresh) procedureFree free
  refine ⟨procedureFree, by decide, free, fun fuel enough => ?_⟩
  rw [reached fuel enough, ← reached 5 (by decide)]
  rfl

end LexLisp
