/-
Module: LexLisp.Proofs.Identity
Purpose: An identity names one closure. A closure is given the count of the closures made before it, and that count
  never goes back. So the closures made so far can be kept in a register in which no identity stands twice, and
  whatever is bound, passed on or yielded holds only closures of the register. An evaluation adds to the register what
  it makes and takes nothing out, and so does every request of a caller.
Main exports: Register, Store.Registers, Registered, evaluate_registered, Client.Registers, Client.Reached.registers
-/
import LexLisp.Proofs.Anatomy
import LexLisp.Proofs.Endowment

namespace LexLisp

/-- The closures made so far. -/
abbrev Register := Closure → Prop

/-- The register of a store: no identity in it stands for two closures or is still to be given out, and all that the
    store binds is made of closures in it. -/
structure Store.Registers (store : Store) (register : Register) : Prop where
  unique : ∀ first second, register first → register second → first.identity = second.identity → first = second
  issued : ∀ closure, register closure → closure.identity < store.closures
  stored : store.Each register

/-!
### Steps of the store
-/

namespace Store.Registers

variable {store : Store} {register : Register}

/-- A value whose closures are registered may be bound. -/
theorem define (registers : store.Registers register) (frame : FrameId) (name : String) {value : Value}
    (each : value.Each register) : (store.define frame name value).Registers register :=
  ⟨registers.unique, registers.issued, registers.stored.define frame name each⟩

/-- Operands whose closures are registered may be bound in a new frame. -/
theorem enter (registers : store.Registers register) (home : FrameId) (names : List String) {values : List Value}
    (each : ∀ value ∈ values, value.Each register) : (store.enter home names values).2.Registers register :=
  ⟨registers.unique, registers.issued, registers.stored.enter home names each⟩

theorem ensurePrimitives (registers : store.Registers register) (frame : FrameId) :
    (store.ensurePrimitives frame).Registers register := by
  unfold Store.ensurePrimitives
  refine List.foldlRecOn (motive := fun later : Store => later.Registers register) Primitive.all _ registers ?_
  intro before registersBefore primitive _
  split
  · exact registersBefore
  · exact registersBefore.define _ _ (Value.each_primitive primitive)

theorem defineAll (registers : store.Registers register) (frame : FrameId) {entries : List (String × Value)}
    (each : ∀ entry ∈ entries, entry.2.Each register) : (store.defineAll frame entries).Registers register := by
  refine List.foldlRecOn (motive := fun later : Store => later.Registers register) entries _ registers ?_
  intro before registersBefore entry member
  exact registersBefore.define frame entry.1 (each entry member)

/-- A new environment binds primitives and what it is given, and makes no closure. -/
theorem create (registers : store.Registers register) {entries : List (String × Value)}
    (each : ∀ entry ∈ entries, entry.2.Each register) : (store.create entries).Registers register := by
  have opened : store.openRoot.Registers register := by
    refine ⟨registers.unique, registers.issued, ?_⟩
    intro frame name value found
    rw [local?_openRoot] at found
    exact registers.stored frame name value found
  rw [create_eq]
  apply opened.defineAll
  intro entry member
  rcases List.mem_append.mp member with listed | given
  · obtain ⟨primitive, _, rfl⟩ := List.mem_map.mp listed
    exact Value.each_primitive primitive
  · exact each entry given

/-- A closure that takes the next identity is the only one of that identity. -/
theorem close (registers : store.Registers register) (names : List String) (body : Expr) (home : FrameId) :
    Registers { store with closures := store.closures + 1 }
      fun closure => register closure ∨ closure = ⟨store.closures, names, body, home⟩ where
  unique := by
    rintro first second (old | rfl) (other | rfl) same
    · exact registers.unique first second old other same
    · exact absurd same (Nat.ne_of_lt (registers.issued first old))
    · exact absurd same.symm (Nat.ne_of_lt (registers.issued second other))
    · rfl
  issued := by
    rintro closure (old | rfl)
    · exact Nat.lt_succ_of_lt (registers.issued closure old)
    · exact Nat.lt_succ_self _
  stored frame name value found := (registers.stored frame name value found).mono fun _ old => .inl old

end Store.Registers

/-!
### Steps of evaluation

The register grows while an evaluation goes on, so what is known of its ending is that there is a larger register.
-/

section Endings

variable {α β : Type} {register : Register}

/-- An ending comes with a register that is no smaller, and with a value that is good for it, if with any. -/
def Registered (register : Register) (good : Register → α → Prop) (ending : Ending α) : Prop :=
  ∃ larger : Register, (∀ closure, register closure → larger closure) ∧ ending.store.Registers larger ∧
    ∀ value, ending.outcome = .ok value → good larger value

/-- A value is made of closures in the register. -/
abbrev Register.Covers (register : Register) (value : Value) : Prop := value.Each register

/-- So are all of several values. -/
abbrev Register.CoversAll (register : Register) (values : List Value) : Prop := ∀ value ∈ values, value.Each register

variable {good : Register → α → Prop} {machine : Machine}

theorem registered_ok (registers : machine.store.Registers register) {value : α} (known : good register value) :
    Registered register good (.ok value machine) :=
  ⟨register, fun _ old => old, registers, fun _ yielded => Except.ok.inj yielded ▸ known⟩

theorem registered_error (registers : machine.store.Registers register) (stop : Stop) :
    Registered register good (.error stop machine : Ending α) :=
  ⟨register, fun _ old => old, registers, fun _ yielded => nomatch yielded⟩

theorem registered_ofExcept (registers : machine.store.Registers register) {result : Except Fault α}
    (known : ∀ value, result = .ok value → good register value) :
    Registered register good (Eval.ofExcept result machine) := by
  cases result with
  | ok value => exact registered_ok registers (known value rfl)
  | error fault => exact registered_error registers _

/-- What comes after a larger register comes after a smaller one. -/
theorem Registered.after {larger : Register} {ending : Ending α} (grown : ∀ closure, register closure → larger closure)
    (later : Registered larger good ending) : Registered register good ending := by
  obtain ⟨largest, more, registers, known⟩ := later
  exact ⟨largest, fun closure old => more closure (grown closure old), registers, known⟩

/-- Two actions in sequence: the second goes on from the register that the first has reached. -/
theorem Registered.bind {middle : Register → β → Prop} {action : Eval β} {next : β → Eval α}
    (first : Registered register middle (action machine))
    (second : ∀ larger value later, (∀ closure, register closure → larger closure) →
      later.store.Registers larger → middle larger value → Registered larger good (next value later)) :
    Registered register good ((action >>= next) machine) := by
  obtain ⟨larger, grown, registers, known⟩ := first
  cases ending : action machine with
  | ok value later =>
      rw [ending] at registers known
      rw [Eval.bind_ok ending]
      exact (second larger value later grown registers (known value rfl)).after grown
  | error stop later =>
      rw [ending] at registers
      rw [Eval.bind_error ending]
      exact (registered_error registers stop).after grown

/-- An event in the log leaves the store alone. -/
theorem Registered.record {event : Event} {next : Unit → Eval α}
    (rest : ∀ logged : Machine, logged.store = machine.store → Registered register good (next () logged)) :
    Registered register good ((Eval.record event >>= next) machine) :=
  rest { machine with log := machine.log.push event } rfl

end Endings

/-- An evaluator that keeps a register and yields only closures in it. -/
def Evaluator.Registers (evaluator : Evaluator) : Prop :=
  ∀ (register : Register) (expression : Expr) (frame : FrameId) (machine : Machine),
    machine.store.Registers register → Registered register Register.Covers (evaluator expression frame machine)

section Steps

variable {inner : Evaluator} {register : Register} {machine : Machine}

/-- What is found in the store is registered. -/
theorem lookup_registered (registers : machine.store.Registers register) (missing : String → Fault)
    (frame : FrameId) (name : String) :
    Registered register Register.Covers (Eval.lookup missing frame name machine) := by
  cases found : machine.store.lookup? frame name with
  | some value =>
      rw [Eval.lookup_some found]
      exact registered_ok registers (registers.stored.lookup? found)
  | none =>
      rw [Eval.lookup_none found]
      exact registered_error registers _

/-- A tag holds no closures, and a variable has what is found. -/
theorem evaluateSymbol_registered (registers : machine.store.Registers register) (missing : String → Fault)
    (name : String) (frame : FrameId) :
    Registered register Register.Covers (evaluateSymbol missing name frame machine) := by
  unfold evaluateSymbol
  cases truth? name with
  | some value => exact registered_ok registers (Value.each_boolean value)
  | none => exact lookup_registered registers missing frame name

/-- Operands in turn come to values of registered closures. -/
theorem evaluateOperands_registered (evaluates : inner.Registers) (frame : FrameId) (operands : List Expr)
    (registers : machine.store.Registers register) :
    Registered register Register.CoversAll (evaluateOperands inner frame operands machine) := by
  induction operands generalizing register machine with
  | nil => exact registered_ok registers fun _ member => nomatch member
  | cons operand operands inductionHypothesis =>
      unfold evaluateOperands
      apply Registered.bind (evaluates register operand frame machine registers)
      intro larger value middle _ registersMiddle each
      apply Registered.bind (inductionHypothesis registersMiddle)
      intro largest values later grown registersLater eachRest
      exact registered_ok registersLater (List.forall_mem_cons.mpr ⟨each.mono grown, eachRest⟩)

/-- A sequence comes to a value of registered closures, if each expression does. -/
theorem evaluateSequence_registered (evaluates : inner.Registers) (frame : FrameId) (first : Expr) (rest : List Expr)
    (registers : machine.store.Registers register) :
    Registered register Register.Covers (evaluateSequence inner frame first rest machine) := by
  induction rest generalizing first register machine with
  | nil => exact evaluates register first frame machine registers
  | cons next rest inductionHypothesis =>
      unfold evaluateSequence
      apply Registered.bind (evaluates register first frame machine registers)
      intro larger _ later _ registersLater _
      exact inductionHypothesis next registersLater

/-- A call passes on what it is given, and the body of a closure makes closures of its own. -/
theorem applyWith_registered (evaluates : inner.Registers) {callee : Value} {operands : List Value}
    (operator : String) (registers : machine.store.Registers register)
    (each : ∀ value ∈ operands, value.Each register) :
    Registered register Register.Covers (applyWith inner callee operands operator machine) := by
  unfold applyWith
  apply Registered.record
  intro logged sameStore
  rw [← sameStore] at registers
  cases callee with
  | primitive primitive =>
      have passed := primitive.call_passedOn each
      apply registered_ofExcept registers
      intro value called
      rwa [called] at passed
  | closure closure =>
      by_cases counts : closure.parameters.length = operands.length
      · simp only [Eval.bind_ok (Eval.enter_of_counts counts)]
        exact evaluates register _ _ _ (registers.enter closure.home closure.parameters each)
      · simp only [Eval.bind_error (Eval.enter_of_counts_ne counts)]
        exact registered_error registers _
  | number | symbol | boolean | list => exact registered_error registers _

/-- The callee is registered. -/
theorem evaluateOperator_registered (evaluates : inner.Registers) (head : Expr) (frame : FrameId)
    (registers : machine.store.Registers register) :
    Registered register Register.Covers (evaluateOperator inner head frame machine) := by
  have atHead : Registered register Register.Covers (evaluateHead inner head frame machine) := by
    cases head with
    | symbol name => exact evaluateSymbol_registered registers _ name frame
    | number | list => exact evaluates register _ frame machine registers
  unfold evaluateOperator
  apply Registered.bind atHead
  intro larger callee later _ registersLater each
  split
  · exact registered_ok registersLater each
  · exact registered_error registersLater _

/-- What a form makes joins the register. -/
theorem close_registered (registers : machine.store.Registers register) (names : List String) (body : Expr)
    (frame : FrameId) : Registered register Register.Covers (Eval.close names body frame machine) := by
  rw [Eval.close_apply]
  refine ⟨_, fun _ old => .inl old, registers.close names body frame, ?_⟩
  rintro value ⟨⟩
  exact (Value.each_closure _).mpr (.inr rfl)

/-- What the two forms share that bind a name: they evaluate the body and write what it yields. -/
theorem binding_registered (evaluates : inner.Registers) {keyword : Keyword} {target body : Expr}
    {next : String → Value → Eval Value} {frame : FrameId} (registers : machine.store.Registers register)
    (bind : ∀ larger name value later, later.store.Registers larger → value.Each larger →
      Registered larger Register.Covers (next name value later)) :
    Registered register Register.Covers ((do
      let name ← Eval.ofExcept (bindingName keyword target)
      let value ← inner body frame
      next name value : Eval Value) machine) := by
  cases target with
  | symbol name =>
      apply Registered.bind (evaluates register body frame machine registers)
      intro larger value later _ registersLater each
      exact bind larger name value later registersLater each
  | number | list => exact registered_error registers _

/-- A special form registers what its operands come to, and the closure that it makes. -/
theorem evaluateForm_registered (evaluates : inner.Registers) (keyword : Keyword) (operands : List Expr)
    (frame : FrameId) (registers : machine.store.Registers register) :
    Registered register Register.Covers (evaluateForm inner keyword operands frame machine) := by
  unfold evaluateForm
  split
  · -- quote
    exact registered_ok registers (Value.each_ofDatum _)
  · -- define
    apply binding_registered evaluates registers
    intro larger name value later registersLater each
    exact registered_ok (registersLater.define frame name each) (Value.each_symbol name)
  · -- set!
    apply binding_registered evaluates registers
    intro larger name value later registersLater each
    apply Registered.record
    intro logged sameStore
    rw [← sameStore] at registersLater
    cases found : logged.store.nearest? frame name with
    | some link =>
        rw [Eval.bind_ok (Eval.assign_some found)]
        exact registered_ok (registersLater.define link name each) (Value.each_symbol name)
    | none =>
        rw [Eval.bind_error (Eval.assign_none found)]
        exact registered_error registersLater _
  · -- begin
    exact evaluateSequence_registered evaluates frame _ _ registers
  · -- if
    apply Registered.bind (evaluates register _ frame machine registers)
    intro larger value later _ registersLater _
    split
    · exact evaluates larger _ frame later registersLater
    · exact evaluates larger _ frame later registersLater
    · exact registered_error registersLater _
  · -- lambda
    next parameters body =>
      cases parametersOf parameters with
      | ok names => exact close_registered registers names body frame
      | error fault => exact registered_error registers _
  · -- lambda-one
    next parameter body =>
      cases bindingName .lambdaOne parameter with
      | ok name => exact close_registered registers [name] body frame
      | error fault => exact registered_error registers _
  · exact registered_error registers _

/-- One step of evaluation registers what it makes if what evaluates the parts does. -/
theorem evaluateWith_registered (evaluates : inner.Registers) : Evaluator.Registers (evaluateWith inner) := by
  intro register expression frame machine registers
  unfold evaluateWith
  split
  · exact registered_ok registers (Value.each_number _)
  · exact evaluateSymbol_registered registers _ _ frame
  · exact registered_error registers _
  · next head operands =>
      cases Keyword.ofHead? head with
      | some keyword => exact evaluateForm_registered evaluates keyword operands frame registers
      | none =>
          apply Registered.bind (evaluateOperator_registered evaluates head frame registers)
          intro larger callee middle _ registersMiddle _
          apply Registered.bind (evaluateOperands_registered evaluates frame operands registersMiddle)
          intro largest values later _ registersLater each
          exact applyWith_registered evaluates head.text registersLater each

end Steps

/-- Every evaluation keeps the register and adds what it makes. -/
theorem evaluate_registered (fuel : Nat) : Evaluator.Registers (evaluate fuel) := by
  induction fuel with
  | zero => exact fun register _ _ machine registers => registered_error registers _
  | succ fuel inductionHypothesis => exact evaluateWith_registered inductionHypothesis

theorem Registered.onFault {register : Register} {good : Register → Value → Prop} {action : Eval Value}
    {machine : Machine} (registered : Registered register good (action machine)) (event : Fault → Event) :
    Registered register good (action.onFault event machine) := by
  cases ending : action machine with
  | ok value later => rwa [Eval.onFault_ok ending, ← ending]
  | error stop later =>
      obtain ⟨larger, grown, registers, _⟩ := registered
      obtain ⟨logged, same, stored⟩ := Eval.onFault_error ending event
      rw [same]
      refine Registered.after grown (registered_error ?_ stop)
      rw [ending] at registers
      rwa [stored]

/-- Forms in order register what they make, also where one of them fails. -/
theorem evaluateForms_registered (fuel : Nat) (forms : List Expr) (frame : FrameId) {register : Register}
    {machine : Machine} (registers : machine.store.Registers register) :
    Registered register Register.Covers (evaluateForms fuel forms frame machine) := by
  have rows : ∀ (forms : List Expr) (index : Nat) (last : Value) (register : Register) (machine : Machine),
      machine.store.Registers register → last.Each register →
        Registered register Register.Covers (evaluateFormsFrom fuel frame index last forms machine) := by
    intro forms
    induction forms with
    | nil => exact fun _ _ register machine registers each => registered_ok registers each
    | cons form forms inductionHypothesis =>
        intro index last register machine registers _
        unfold evaluateFormsFrom
        apply Registered.bind ((evaluate_registered fuel register form frame machine registers).onFault _)
        intro larger value later _ registersLater each
        exact inductionHypothesis (index + 1) value larger later registersLater each
  exact rows forms 0 (.list []) register machine registers (by simp)

/-!
### Whole runs of a caller
-/

namespace Client

/-- All closures that a client can get hold of are in the register. -/
structure Registers (client : Client) (register : Register) : Prop where
  store : client.store.Registers register
  held : ∀ value ∈ client.values, value.Each register

namespace Registers

variable {client : Client} {register : Register}

/-- What a client holds is registered. -/
theorem each (registers : client.Registers register) {value : Value} (holds : client.Holds value) :
    value.Each register := by
  intro closure within
  obtain ⟨source, member, inside⟩ := holds closure within
  exact registers.held source member closure inside

theorem withStore (registers : client.Registers register) {store : Store} (stored : store.Registers register) :
    (client.withStore store).Registers register :=
  ⟨stored, registers.held⟩

theorem addValue (registers : client.Registers register) {value : Value} (known : value.Each register) :
    Registers { client with values := value :: client.values } register :=
  ⟨registers.store, List.forall_mem_cons.mpr ⟨known, registers.held⟩⟩

/-- After an action the register may be larger, and it covers what the client is handed. -/
theorem finish (registers : client.Registers register) {ending : Ending Value}
    (registered : Registered register Register.Covers ending) : ∃ larger, (client.finish ending).Registers larger := by
  obtain ⟨larger, grown, stored, known⟩ := registered
  have held : ∀ value ∈ client.values, value.Each larger :=
    fun value member => (registers.held value member).mono grown
  refine ⟨larger, ?_⟩
  cases ending with
  | ok value machine => exact ⟨stored, List.forall_mem_cons.mpr ⟨known value rfl, held⟩⟩
  | error stop machine => exact ⟨stored, held⟩

/-- What one request does, whether it succeeds or fails. Only an evaluation makes closures. -/
theorem perform (registers : client.Registers register) {request : Request} (allowed : client.Allows request) :
    ∃ larger, (client.perform request).Registers larger := by
  have known : ∀ value ∈ request.values, value.Each register :=
    fun value member => registers.each (allowed.2 value member)
  cases request with
  | extend parent names operands callee =>
      refine ⟨register, ?_⟩
      by_cases counts : names.length = operands.length
      · simp only [Client.perform, Store.extend, checkCounts, counts, if_true]
        exact ⟨registers.store.enter parent names known, registers.held⟩
      · simp only [Client.perform, Store.extend, checkCounts, counts, if_false]
        exact registers
  | define frame name value =>
      exact ⟨register, registers.withStore (registers.store.define frame name (known value List.mem_cons_self))⟩
  | assign frame name value =>
      refine ⟨register, ?_⟩
      simp only [Client.perform, Store.assign?]
      cases client.store.nearest? frame name with
      | none => exact registers
      | some link => exact registers.withStore (registers.store.define link name (known value List.mem_cons_self))
  | ensurePrimitives frame => exact ⟨register, registers.withStore (registers.store.ensurePrimitives frame)⟩
  | evaluate fuel expression frame =>
      exact registers.finish (evaluate_registered fuel register expression frame client.machine registers.store)
  | apply fuel callee operands operator =>
      exact registers.finish (applyWith_registered (evaluate_registered fuel) operator registers.store
        (List.forall_mem_cons.mp known).2)
  | run fuel source text frame =>
      rcases client.finish_runText_cases fuel source text frame with same | ⟨forms, same⟩
      · rw [Client.perform, same]
        exact ⟨register, registers⟩
      · rw [Client.perform, same]
        exact registers.finish (evaluateForms_registered fuel forms frame registers.store)
  | lookup frame name =>
      refine ⟨register, ?_⟩
      simp only [Client.perform]
      cases found : client.store.lookup? frame name with
      | none => exact registers
      | some value => exact registers.addValue (registers.store.stored.lookup? found)
  | parent frame =>
      refine ⟨register, ?_⟩
      simp only [Client.perform]
      cases client.store.parent? frame with
      | none => exact registers
      | some parent => exact ⟨registers.store, registers.held⟩
  | home closure => exact ⟨register, registers.store, registers.held⟩

end Registers

/-- However a caller has come to what it holds, an identity names one closure there. -/
theorem Reached.registers {client : Client} (reached : client.Reached) : ∃ register, client.Registers register := by
  induction reached with
  | start =>
      refine ⟨fun _ => False, ⟨fun _ _ none => none.elim, fun _ none => none.elim, ?_⟩, fun _ member => nomatch member⟩
      intro frame name value found
      exact absurd (Store.lt_size_of_local? found) (Nat.not_lt_zero frame)
  | create _ entries held inductionHypothesis =>
      obtain ⟨register, registers⟩ := inductionHypothesis
      exact ⟨register, registers.store.create fun entry member => registers.each (held entry member), registers.held⟩
  | step _ request allowed inductionHypothesis =>
      obtain ⟨register, registers⟩ := inductionHypothesis
      exact registers.perform allowed

end Client

end LexLisp
