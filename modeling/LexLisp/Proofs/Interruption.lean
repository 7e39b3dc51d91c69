/-
Module: LexLisp.Proofs.Interruption
Purpose: The states inside a run. A run may be cut off where it is about to evaluate an expression, at any
  depth of calls; what it leaves is a state in the middle of the whole run. A run writes to the store only at
  the end of a definition, of an assignment or of a procedure's making, and when it enters a call. After each of
  these it evaluates the next expression or is over, so every store of a run is the store of a cut.
Main exports: Cut, evaluateUntil, evaluateFormsUntil, evaluateFormsUntil_never,
  Discipline.evaluateFormsUntil_allows, Store.Pristine, Store.pristine_fresh
-/
import LexLisp.Proofs.WellFormed

namespace LexLisp

/-- Where to cut off a run: before such an expression is evaluated in such a frame by such a machine. -/
abbrev Cut := Expr → FrameId → Machine → Bool

/-- An evaluation that goes on until it is to be cut off. -/
def evaluateUntil (cut : Cut) : Nat → Expr → FrameId → Eval Value
  | 0, _, _ => throw .outOfFuel
  | fuel + 1, expression, frame => fun machine =>
    if cut expression frame machine then .error .outOfFuel machine
    else evaluateWith (evaluateUntil cut fuel) expression frame machine

/-- The forms of a program in order, until they are to be cut off. -/
def evaluateFormsUntil (cut : Cut) (fuel : Nat) (forms : List Expr) (frame : FrameId) : Eval Value :=
  evaluateFormsBy (evaluateUntil cut fuel) frame 0 (.list []) forms

/-- A run that is cut off nowhere. -/
def Cut.never : Cut := fun _ _ _ => false

theorem evaluateUntil_never (fuel : Nat) : evaluateUntil Cut.never fuel = evaluate fuel := by
  induction fuel with
  | zero => rfl
  | succ fuel inductionHypothesis =>
      funext expression frame
      simp only [evaluateUntil, evaluate, inductionHypothesis, Cut.never]
      rfl

/-- A run that is cut off nowhere is the whole run. -/
theorem evaluateFormsUntil_never (fuel : Nat) (forms : List Expr) (frame : FrameId) :
    evaluateFormsUntil Cut.never fuel forms frame = evaluateForms fuel forms frame := by
  rw [evaluateFormsUntil, evaluateUntil_never, evaluateFormsBy_evaluate, evaluateForms]

namespace Discipline

variable {discipline : Discipline}

/-- What every evaluation keeps to, it keeps to up to every cut. -/
theorem evaluateUntil_respects (lawful : discipline.Lawful) (cut : Cut) (fuel : Nat) :
    discipline.Respects (evaluateUntil cut fuel) := by
  induction fuel with
  | zero =>
      intro expression frame machine safe _
      exact ⟨.refl safe, fun name same => nomatch same⟩
  | succ fuel inductionHypothesis =>
      intro expression frame machine safe admitted
      have truthful : Truthful .unknownOperator := fun name reported same => nomatch same
      have step := evaluateWithAs_respects truthful lawful inductionHypothesis expression frame machine
        safe admitted
      rw [evaluateWithAs_unknownOperator] at step
      unfold evaluateUntil
      split
      · exact ⟨.refl safe, fun name same => nomatch same⟩
      · exact step

/-- The forms of a program keep to a discipline up to every cut. -/
theorem evaluateFormsUntil_allows (lawful : discipline.Lawful) (cut : Cut) (fuel : Nat)
    {forms : List Expr} {frame : FrameId} {machine : Machine} (safe : discipline.Safe machine.store)
    (admitted : ∀ form ∈ forms, discipline.admits machine.store form frame) :
    discipline.Allows machine.store (fun value store => value.Each (discipline.trusts store))
      (evaluateFormsUntil cut fuel forms frame machine) :=
  evaluateFormsBy_allows lawful (evaluateUntil_respects lawful cut fuel) frame forms 0 (.list []) machine
    safe (by simp) admitted

end Discipline

/-!
### Where programs start
-/

/-- The global frame is the only frame, and nothing that it binds holds a closure. -/
structure Store.Pristine (store : Store) : Prop where
  size_eq : store.size = 1
  outermost : store.parent? Store.globalFrame = none
  data : ∀ name value, store.local? Store.globalFrame name = some value → value.Each fun _ => False

namespace Store

/-- In a store with one frame that frame is the global one. -/
theorem Pristine.eq_globalFrame {store : Store} (pristine : store.Pristine) {frame : FrameId}
    (made : frame < store.size) : frame = globalFrame := by
  rw [pristine.size_eq] at made
  exact Nat.lt_one_iff.mp made

theorem Pristine.ordered {store : Store} (pristine : store.Pristine) : store.ParentsEarlier := by
  intro frame parent link
  rw [pristine.eq_globalFrame (lt_size_of_parent? link), pristine.outermost] at link
  cases link

/-- Nothing in a pristine store holds a closure. -/
theorem Pristine.each {store : Store} (pristine : store.Pristine) {kind : Closure → Prop} {frame : FrameId}
    {name : String} {value : Value} (found : store.local? frame name = some value) : value.Each kind := by
  rw [pristine.eq_globalFrame (lt_size_of_local? found)] at found
  exact (pristine.data name value found).mono fun _ none => none.elim

/-- A new global frame is pristine: no closure was made yet. -/
theorem pristine_fresh : fresh.Pristine where
  size_eq := by decide
  outermost := rooted_fresh.outermost
  data name value found closure within := by
    have issued : closure.identity < 0 := (wellFormed_fresh.known _ name value found closure within).2
    exact absurd issued (Nat.not_lt_zero _)

end Store

end LexLisp
