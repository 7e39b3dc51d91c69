/-
Module: LexLisp.Proofs.LogIndependence
Purpose: The log is written and never read. Whatever stands in it when an evaluation begins stands in front when the
  evaluation ends, and the value or the stop, the store and the new events are what they are on an empty log. So the
  events of an expression are a matter of the expression, its frame and the store. To end alike behind earlier events
  is a congruence, so it is enough to look at the basic actions of the machine.
Main exports: Machine.behind, Eval.Echoes, Eval.Oblivious, Eval.Echoes.congruence, evaluate_oblivious, evaluate_behind
-/
import LexLisp.Proofs.Congruence

namespace LexLisp

/-- A machine with earlier events in front of those in its log. -/
def Machine.behind (machine : Machine) (log : Array Event) : Machine :=
  ⟨machine.store, log ++ machine.log⟩

/-- A machine is one with an empty log, behind its own log. -/
theorem Machine.behind_ofStore (machine : Machine) :
    (Machine.ofStore machine.store).behind machine.log = machine := by
  simp [behind, ofStore]

/-- An ending with earlier events in front of those in the log. -/
def Ending.behind {α : Type} (ending : Ending α) (log : Array Event) : Ending α :=
  match ending with
  | .ok value machine => .ok value (machine.behind log)
  | .error stop machine => .error stop (machine.behind log)

/-- Behind earlier events the second action ends as the first does without them, and these events stay in front. -/
def Eval.Echoes {α : Type} (action more : Eval α) : Prop :=
  ∀ machine log, more (machine.behind log) = Ending.behind (action machine) log

/-- The action does the same whatever stands in the log, and leaves it in front. -/
abbrev Eval.Oblivious {α : Type} (action : Eval α) : Prop := Eval.Echoes action action

namespace Eval.Echoes

variable {α β : Type}

/-- Two actions in sequence: where the first stops, both stop, and otherwise the second finds the same events in
    front. -/
theorem bind {action more : Eval β} {next following : β → Eval α} (now : Echoes action more)
    (later : ∀ value, Echoes (next value) (following value)) : Echoes (action >>= next) (more >>= following) := by
  intro machine log
  have first := now machine log
  cases ending : action machine with
  | ok value middle =>
      rw [ending] at first
      rw [Eval.bind_ok ending, Eval.bind_ok first]
      exact later value middle log
  | error stop middle =>
      rw [ending] at first
      rw [Eval.bind_error ending, Eval.bind_error first]
      rfl

end Eval.Echoes

namespace Eval.Oblivious

/-- An event that is recorded goes behind all the others. -/
theorem record (event : Event) : Oblivious (Eval.record event) := by
  intro machine log
  rw [Eval.record_apply, Eval.record_apply]
  simp [Machine.behind, Ending.behind]

/-- A search reads the store alone. -/
theorem lookup (missing : String → Fault) (frame : FrameId) (name : String) :
    Oblivious (Eval.lookup missing frame name) := by
  intro machine log
  cases found : machine.store.lookup? frame name with
  | some value =>
      rw [Eval.lookup_some found]
      exact Eval.lookup_some found
  | none =>
      rw [Eval.lookup_none found]
      exact Eval.lookup_none found

/-- An assignment finds its binding in the store and changes it there. -/
theorem assign (frame : FrameId) (name : String) (value : Value) : Oblivious (Eval.assign frame name value) := by
  intro machine log
  cases found : machine.store.nearest? frame name with
  | some link =>
      rw [Eval.assign_some found]
      exact Eval.assign_some found
  | none =>
      rw [Eval.assign_none found]
      exact Eval.assign_none found

/-- A call is refused for the counts of its operands, and makes its frame in the store. -/
theorem enter (home : FrameId) (parameters : List String) (operands : List Value) (callee : String) :
    Oblivious (Eval.enter home parameters operands callee) := by
  intro machine log
  by_cases counts : parameters.length = operands.length
  · rw [Eval.enter_of_counts counts, Eval.enter_of_counts counts]
    rfl
  · rw [Eval.enter_of_counts_ne counts, Eval.enter_of_counts_ne counts]
    rfl

end Eval.Oblivious

/-- No basic action reads the log. What is pure or fails, and what writes to the store alone, does so by definition. -/
theorem Eval.Echoes.congruence : Eval.Congruence Eval.Echoes where
  done _ _ _ := rfl
  raise _ _ _ := rfl
  record := Oblivious.record
  lookup := Oblivious.lookup
  define _ _ _ _ _ := rfl
  assign := Oblivious.assign
  enter := Oblivious.enter
  close _ _ _ _ _ := rfl
  bind now later := .bind now later

/-- No evaluation reads the log. -/
theorem evaluate_oblivious (fuel : Nat) (expression : Expr) (frame : FrameId) :
    Eval.Oblivious (evaluate fuel expression frame) := by
  have cut : ∀ expression frame, Eval.Echoes (throw .outOfFuel) (evaluate 0 expression frame) := fun _ _ _ _ => rfl
  exact evaluate_congr Eval.Echoes.congruence cut fuel expression frame

/-- An evaluation is one of the same store with an empty log, behind what stands in the log. -/
theorem evaluate_behind (fuel : Nat) (expression : Expr) (frame : FrameId) (machine : Machine) :
    evaluate fuel expression frame machine =
      Ending.behind (evaluate fuel expression frame (.ofStore machine.store)) machine.log := by
  have same := evaluate_oblivious fuel expression frame (.ofStore machine.store) machine.log
  rwa [Machine.behind_ofStore] at same

end LexLisp
