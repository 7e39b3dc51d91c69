/-
Module: LexLisp.Proofs.Fuel
Purpose: What the bound on the depth of the recursion decides. An evaluation that ends within its bound ends in
  the same way, with the same machine, within every larger bound; only whether it is cut off depends on the
  bound. To outlast is a congruence, so the steps of the evaluator keep it.
Main exports: Ending.Finished, Eval.Outlasts, Evaluator.Outlasts, Eval.Outlasts.congruence, evaluate_outlasts
-/
import LexLisp.Proofs.Congruence

namespace LexLisp

namespace Ending

variable {α : Type}

/-- The program has ended, and not its fuel. -/
def Finished (ending : Ending α) : Prop := ending.outcome ≠ .error .outOfFuel

@[simp] theorem finished_ok (value : α) (machine : Machine) : Finished (.ok value machine : Ending α) := by
  simp [Finished]

@[simp] theorem finished_error (stop : Stop) (machine : Machine) :
    Finished (.error stop machine : Ending α) ↔ stop ≠ .outOfFuel := by
  simp [Finished]

end Ending

/-- Wherever the first action finishes, the second ends as it does. -/
def Eval.Outlasts {α : Type} (action more : Eval α) : Prop :=
  ∀ machine, Ending.Finished (action machine) → more machine = action machine

namespace Eval.Outlasts

variable {α β : Type}

/-- An action outlasts itself. -/
theorem refl (action : Eval α) : Outlasts action action :=
  fun _ _ => rfl

theorem trans {action more most : Eval α} (early : Outlasts action more) (late : Outlasts more most) :
    Outlasts action most := by
  intro machine finished
  have same := early machine finished
  exact (late machine (same ▸ finished)).trans same

/-- Two actions in sequence: a stop of the first is the stop of both. -/
theorem bind {action more : Eval β} {next following : β → Eval α} (now : Outlasts action more)
    (later : ∀ value, Outlasts (next value) (following value)) :
    Outlasts (action >>= next) (more >>= following) := by
  intro machine finished
  cases first : action machine with
  | ok value middle =>
      have second : more machine = .ok value middle :=
        (now machine (by rw [first]; exact Ending.finished_ok value middle)).trans first
      rw [Eval.bind_ok first] at finished ⊢
      rw [Eval.bind_ok second]
      exact later value middle finished
  | error stop middle =>
      rw [Eval.bind_error first, Ending.finished_error] at finished
      have second : more machine = .error stop middle :=
        (now machine (by rw [first]; exact (Ending.finished_error stop middle).mpr finished)).trans first
      rw [Eval.bind_error first, Eval.bind_error second]

end Eval.Outlasts

/-- Wherever the first evaluator finishes, the second ends as it does. -/
def Evaluator.Outlasts (inner more : Evaluator) : Prop :=
  ∀ expression frame, Eval.Outlasts (inner expression frame) (more expression frame)

/-- To outlast is a congruence: each basic action, like any other, outlasts itself. -/
theorem Eval.Outlasts.congruence : Eval.Congruence Eval.Outlasts := .of_refl .refl .bind

/-- Where the fuel is at its end nothing has finished, so whatever is done there instead outlasts it. -/
theorem Eval.Outlasts.outOfFuel {α : Type} (more : Eval α) : Eval.Outlasts (throw .outOfFuel) more :=
  fun _ finished => absurd rfl finished

/-- More fuel keeps a finished answer. -/
theorem evaluate_outlasts {fuel more : Nat} (enough : fuel ≤ more) :
    Evaluator.Outlasts (evaluate fuel) (evaluate more) := by
  obtain ⟨extra, rfl⟩ := Nat.exists_eq_add_of_le enough
  exact evaluate_congr Eval.Outlasts.congruence (fun _ _ => .outOfFuel _) fuel

end LexLisp
