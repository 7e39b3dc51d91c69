/-
Module: LexLisp.Proofs.Outcome
Purpose: What the actions of an evaluation do to a machine. Every action ends with a value or with a stop,
  and with a machine in both cases, so what is known of an action is said of its ending: one thing where it
  yields a value, another where it stops. Each basic action has one equation; no later proof opens it.
Main exports: Ending, Ending.machine, Ending.outcome, Ending.Meets, Ending.Meets.bind
-/
import LexLisp.Evaluator

namespace LexLisp

/-- How an action on a machine ends. -/
abbrev Ending (α : Type) := EStateM.Result Stop Machine α

namespace Ending

variable {α β : Type}

/-- The machine at the end, whatever the outcome. -/
def machine : Ending α → Machine
  | .ok _ machine => machine
  | .error _ machine => machine

/-- The store at the end, whatever the outcome. -/
def store (ending : Ending α) : Store := ending.machine.store

/-- The value at the end, or why there is none. -/
def outcome : Ending α → Except Stop α
  | .ok value _ => .ok value
  | .error stop _ => .error stop

@[simp] theorem machine_ok (value : α) (machine : Machine) :
    Ending.machine (.ok value machine) = machine := rfl

@[simp] theorem machine_error (stop : Stop) (machine : Machine) :
    Ending.machine (.error stop machine : Ending α) = machine := rfl

@[simp] theorem outcome_ok (value : α) (machine : Machine) :
    Ending.outcome (.ok value machine) = .ok value := rfl

@[simp] theorem outcome_error (stop : Stop) (machine : Machine) :
    Ending.outcome (.error stop machine : Ending α) = .error stop := rfl

/-- `good` holds of a value with its machine, `bad` of a stop with its machine. -/
def Meets (good : α → Machine → Prop) (bad : Stop → Machine → Prop) : Ending α → Prop
  | .ok value machine => good value machine
  | .error stop machine => bad stop machine

namespace Meets

variable {good good' : α → Machine → Prop} {bad bad' : Stop → Machine → Prop}

/-- What is known of an ending may be forgotten in part. -/
theorem weaken {ending : Ending α} (known : ending.Meets good bad)
    (onValue : ∀ value machine, good value machine → good' value machine)
    (onStop : ∀ stop machine, bad stop machine → bad' stop machine) :
    ending.Meets good' bad' := by
  cases ending with
  | ok value machine => exact onValue value machine known
  | error stop machine => exact onStop stop machine known

/-- Two actions in sequence: a stop of the first is the stop of both. -/
theorem bind {middle : β → Machine → Prop} {action : Eval β} {next : β → Eval α} {machine : Machine}
    (first : Meets middle bad (action machine))
    (second : ∀ value later, middle value later → Meets good bad (next value later)) :
    Meets good bad ((action >>= next) machine) := by
  simp only [Bind.bind, EStateM.bind]
  cases ending : action machine with
  | ok value later =>
      rw [ending] at first
      exact second value later first
  | error stop later =>
      rw [ending] at first
      exact first

end Meets

end Ending

/-!
### The basic actions

The equations below are all that is used of the actions of `LexLisp.Machine`.
-/

namespace Eval

variable {α β : Type}

theorem bind_ok {action : Eval β} {next : β → Eval α} {machine later : Machine} {value : β}
    (ending : action machine = .ok value later) : (action >>= next) machine = next value later := by
  simp only [Bind.bind, EStateM.bind, ending]

theorem bind_error {action : Eval β} {next : β → Eval α} {machine later : Machine} {stop : Stop}
    (ending : action machine = .error stop later) : (action >>= next) machine = .error stop later := by
  simp only [Bind.bind, EStateM.bind, ending]

/-- Where two actions in sequence yield a value, both do. -/
theorem exists_of_bind_ok {action : Eval β} {next : β → Eval α} {machine last : Machine} {result : α}
    (ended : (action >>= next) machine = .ok result last) :
    ∃ value later, action machine = .ok value later ∧ next value later = .ok result last := by
  cases first : action machine with
  | ok value later =>
      rw [bind_ok first] at ended
      exact ⟨value, later, rfl, ended⟩
  | error stop later =>
      rw [bind_error first] at ended
      cases ended

/-- Two actions in sequence stop where the first does, or where it yields a value and the second stops. -/
theorem bind_eq_error_iff {action : Eval β} {next : β → Eval α} {machine last : Machine} {stop : Stop} :
    (action >>= next) machine = .error stop last ↔ action machine = .error stop last ∨
      ∃ value later, action machine = .ok value later ∧ next value later = .error stop last := by
  cases first : action machine with
  | ok value later =>
      rw [bind_ok first]
      constructor
      · exact fun stopped => .inr ⟨value, later, rfl, stopped⟩
      · rintro (stopped | ⟨_, _, same, stopped⟩)
        · cases stopped
        · cases same
          exact stopped
  | error cause later =>
      rw [bind_error first]
      constructor
      · intro stopped
        cases stopped
        exact .inl rfl
      · rintro (stopped | ⟨_, _, same, _⟩)
        · cases stopped
          rfl
        · cases same

/-- An action that looks at the machine first. -/
theorem get_bind (next : Machine → Eval α) (machine : Machine) :
    (get >>= next) machine = next machine machine := rfl

@[simp] theorem pure_apply (value : α) (machine : Machine) :
    (pure value : Eval α) machine = .ok value machine := rfl

@[simp] theorem raise_apply (fault : Fault) (machine : Machine) :
    (raise fault : Eval α) machine = .error (.fault fault) machine := rfl

@[simp] theorem ofExcept_ok (value : α) : ofExcept (.ok value) = (pure value : Eval α) := rfl

@[simp] theorem ofExcept_error (fault : Fault) : ofExcept (.error fault) = (raise fault : Eval α) := rfl

@[simp] theorem record_apply (event : Event) (machine : Machine) :
    record event machine = .ok () { machine with log := machine.log.push event } := rfl

@[simp] theorem define_apply (frame : FrameId) (name : String) (value : Value) (machine : Machine) :
    define frame name value machine =
      .ok () { machine with store := machine.store.define frame name value } := rfl

@[simp] theorem close_apply (parameters : List String) (body : Expr) (home : FrameId)
    (machine : Machine) :
    close parameters body home machine =
      .ok (.closure ⟨machine.store.closures, parameters, body, home⟩)
        { machine with store := { machine.store with closures := machine.store.closures + 1 } } := rfl

theorem lookup_some {missing : String → Fault} {frame : FrameId} {name : String} {machine : Machine}
    {value : Value} (found : machine.store.lookup? frame name = some value) :
    lookup missing frame name machine = .ok value machine := by
  rw [lookup, get_bind, found]
  rfl

theorem lookup_none {missing : String → Fault} {frame : FrameId} {name : String} {machine : Machine}
    (unbound : machine.store.lookup? frame name = none) :
    lookup missing frame name machine = .error (.fault (missing name)) machine := by
  rw [lookup, get_bind, unbound]
  rfl

theorem assign_some {frame link : FrameId} {name : String} {value : Value} {machine : Machine}
    (found : machine.store.nearest? frame name = some link) :
    assign frame name value machine =
      .ok () { machine with store := machine.store.define link name value } := by
  rw [assign, get_bind, found]
  rfl

theorem assign_none {frame : FrameId} {name : String} {value : Value} {machine : Machine}
    (unbound : machine.store.nearest? frame name = none) :
    assign frame name value machine = .error (.fault (.unboundVariable name)) machine := by
  rw [assign, get_bind, unbound]
  rfl

/-- An assignment that succeeds has found the binding that it writes to. -/
theorem exists_of_assign_ok {frame : FrameId} {name : String} {value : Value} {machine last : Machine}
    {result : Unit} (ended : assign frame name value machine = .ok result last) :
    ∃ link, machine.store.nearest? frame name = some link ∧
      last = { machine with store := machine.store.define link name value } := by
  cases found : machine.store.nearest? frame name with
  | some link =>
      cases (assign_some found).symm.trans ended
      exact ⟨link, rfl, rfl⟩
  | none => cases (assign_none found).symm.trans ended

/-- An assignment fails only where no binding is found. -/
theorem missing_of_assign_error {frame : FrameId} {name : String} {value : Value} {machine last : Machine}
    {stop : Stop} (ended : assign frame name value machine = .error stop last) :
    machine.store.nearest? frame name = none ∧ stop = .fault (.unboundVariable name) ∧ last = machine := by
  cases found : machine.store.nearest? frame name with
  | some link => cases (assign_some found).symm.trans ended
  | none =>
      cases (assign_none found).symm.trans ended
      exact ⟨rfl, rfl, rfl⟩

theorem enter_of_counts {home : FrameId} {parameters : List String} {operands : List Value}
    {callee : String} {machine : Machine} (counts : parameters.length = operands.length) :
    enter home parameters operands callee machine =
      .ok machine.store.frames.size
        { machine with store := (machine.store.enter home parameters operands).2 } := by
  simp only [enter, checkCounts, counts, if_true, ofExcept_ok]
  rfl

theorem enter_of_counts_ne {home : FrameId} {parameters : List String} {operands : List Value}
    {callee : String} {machine : Machine} (counts : parameters.length ≠ operands.length) :
    enter home parameters operands callee machine =
      .error (.fault (.arity callee (.exactly parameters.length) operands.length)) machine := by
  simp only [enter, checkCounts, counts, if_false, ofExcept_error]
  rfl

/-- A report of a failure leaves a value alone. -/
theorem onFault_ok {action : Eval α} {machine later : Machine} {value : α}
    (ending : action machine = .ok value later) {event : Fault → Event} :
    action.onFault event machine = .ok value later := by
  rw [onFault, ending]

/-- A fault is reported behind all that happened before it. -/
theorem onFault_fault {action : Eval α} {machine later : Machine} {fault : Fault}
    (ending : action machine = .error (.fault fault) later) (event : Fault → Event) :
    action.onFault event machine = .error (.fault fault) { later with log := later.log.push (event fault) } := by
  rw [onFault, ending]

/-- A report of a failure changes no store. -/
theorem onFault_error {action : Eval α} {machine later : Machine} {stop : Stop}
    (ending : action machine = .error stop later) (event : Fault → Event) :
    ∃ logged, action.onFault event machine = .error stop logged ∧ logged.store = later.store := by
  rw [onFault, ending]
  cases stop with
  | fault fault => exact ⟨_, rfl, rfl⟩
  | outOfFuel => exact ⟨_, rfl, rfl⟩

end Eval

end LexLisp
