/-
Module: LexLisp.Machine
Purpose: The state of an evaluation and its effects. The state is a store and a log of events; it is kept
  when an evaluation fails, since what was bound before a failure stays bound.
Main exports: Event, Machine, Stop, Eval
-/
import LexLisp.Store

namespace LexLisp

/-- What an evaluation reports while it runs. -/
inductive Event where
  /-- A call, before its operand count is checked. -/
  | apply (operator : String) (count : Nat)
  /-- A value about to be bound in the current frame. -/
  | define (name : String) (value : Value)
  /-- A value about to be assigned to the nearest binding. -/
  | assign (name : String) (value : Value)
  /-- The form of a program, counted from 0, that failed. -/
  | failed (index : Nat) (form : Expr) (fault : Fault)
deriving Repr, Inhabited

/-- The state of a run. -/
structure Machine where
  store : Store
  log : Array Event
deriving Inhabited

/-- A machine that has done nothing yet. -/
def Machine.ofStore (store : Store) : Machine := ⟨store, #[]⟩

/-- Why an evaluation did not yield a value: a fault of the program, or the bound on its depth. -/
inductive Stop where
  | fault (cause : Fault)
  | outOfFuel
deriving Repr, Inhabited, DecidableEq

/-- An evaluation: a step of the machine that yields a value or stops. -/
abbrev Eval := EStateM Stop Machine

namespace Eval

/-- Stops with a fault. -/
def raise {α : Type} (fault : Fault) : Eval α :=
  throw (.fault fault)

/-- A computation without effects that may fail. -/
def ofExcept {α : Type} : Except Fault α → Eval α
  | .ok result => pure result
  | .error fault => raise fault

/-- Adds an event to the log. -/
def record (event : Event) : Eval Unit :=
  modify fun machine => { machine with log := machine.log.push event }

/-- The value of a variable; `missing` is the fault if it has none. -/
def lookup (missing : String → Fault) (frame : FrameId) (name : String) : Eval Value := do
  match (← get).store.lookup? frame name with
  | some value => pure value
  | none => raise (missing name)

/-- Binds a name in a frame. -/
def define (frame : FrameId) (name : String) (value : Value) : Eval Unit :=
  modify fun machine => { machine with store := machine.store.define frame name value }

/-- Changes the nearest binding of a name. -/
def assign (frame : FrameId) (name : String) (value : Value) : Eval Unit := do
  match (← get).store.nearest? frame name with
  | some link => define link name value
  | none => raise (.unboundVariable name)

/-- Makes the frame of a call, once the counts are known to agree. -/
def enter (home : FrameId) (parameters : List String) (operands : List Value) (callee : String) :
    Eval FrameId := do
  ofExcept (checkCounts parameters operands callee)
  modifyGet fun machine =>
    let (frame, store) := machine.store.enter home parameters operands
    (frame, { machine with store := store })

/-- Makes a closure with an identity of its own. -/
def close (parameters : List String) (body : Expr) (home : FrameId) : Eval Value :=
  modifyGet fun machine =>
    (.closure ⟨machine.store.closures, parameters, body, home⟩,
      { machine with store := { machine.store with closures := machine.store.closures + 1 } })

/-- A computation that leaves an event behind when it fails. -/
def onFault {α : Type} (action : Eval α) (event : Fault → Event) : Eval α := fun machine =>
  match action machine with
  | .ok result machine => .ok result machine
  | .error (.fault fault) machine =>
    .error (.fault fault) { machine with log := machine.log.push (event fault) }
  | .error .outOfFuel machine => .error .outOfFuel machine

end Eval

end LexLisp
