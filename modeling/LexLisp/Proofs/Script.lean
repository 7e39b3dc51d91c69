/-
Module: LexLisp.Proofs.Script
Purpose: A session is the script of its inputs. Texts that are run one after another on one machine, until one
  fails, do what one text does that holds them all on lines of their own: the same value, the same failure and
  the same store. The position that the log gives a form that fails is counted in its own text, and so is all
  that differs.
Main exports: evaluateFormsFrom_append, Ending.Agree, evaluateFormsFrom_agree, runTexts, runPrograms,
  valueOfLast, runText_joined
-/
import LexLisp.Proofs.Outcome
import LexLisp.Proofs.Surface.Joining
import LexLisp.Program
import Mathlib

namespace LexLisp

/-!
### Forms in two parts
-/

/-- Forms are evaluated part by part. -/
theorem evaluateFormsFrom_append (fuel : Nat) (frame : FrameId) (index : Nat) (last : Value)
    (forms more : List Expr) :
    evaluateFormsFrom fuel frame index last (forms ++ more) =
      (evaluateFormsFrom fuel frame index last forms >>= fun value =>
        evaluateFormsFrom fuel frame (index + forms.length) value more) := by
  induction forms generalizing index last with
  | nil => simp [evaluateFormsFrom]
  | cons form forms inductionHypothesis =>
      simp only [List.cons_append, evaluateFormsFrom, inductionHypothesis, bind_assoc,
        List.length_cons, Nat.add_assoc, Nat.add_comm 1]

namespace Ending

/-- Two endings with the same outcome. The machines are the same if there is a value, and otherwise the stores
    are. -/
def Agree {α : Type} : Ending α → Ending α → Prop
  | .ok value machine, .ok other later => value = other ∧ machine = later
  | .error stop machine, .error other later => stop = other ∧ machine.store = later.store
  | _, _ => False

theorem Agree.refl {α : Type} (ending : Ending α) : ending.Agree ending := by
  cases ending <;> exact ⟨rfl, rfl⟩

theorem Agree.eq_ok {α : Type} {value : α} {machine : Machine} {ending : Ending α}
    (agree : Agree (.ok value machine) ending) : ending = .ok value machine := by
  cases ending with
  | ok other later => rw [agree.1, agree.2]
  | error stop later => exact agree.elim

theorem Agree.exists_error {α : Type} {stop : Stop} {machine : Machine} {ending : Ending α}
    (agree : Agree (.error stop machine) ending) :
    ∃ later, ending = .error stop later ∧ later.store = machine.store := by
  cases ending with
  | ok value later => exact agree.elim
  | error other later => exact ⟨later, by rw [agree.1], agree.2.symm⟩

end Ending

/-- Reports of a failure that differ leave the same behind otherwise. -/
theorem Eval.onFault_agree {α : Type} (action : Eval α) (event other : Fault → Event)
    (machine : Machine) :
    Ending.Agree (action.onFault event machine) (action.onFault other machine) := by
  cases ending : action machine with
  | ok value later =>
      rw [Eval.onFault_ok ending, Eval.onFault_ok ending]
      exact ⟨rfl, rfl⟩
  | error stop later =>
      obtain ⟨logged, step, same⟩ := Eval.onFault_error ending event
      obtain ⟨loggedOther, stepOther, sameOther⟩ := Eval.onFault_error ending other
      rw [step, stepOther]
      exact ⟨rfl, same.trans sameOther.symm⟩

theorem Ending.Agree.bind {α β : Type} {action other : Eval β} {next following : β → Eval α}
    {machine : Machine} (now : Ending.Agree (action machine) (other machine))
    (later : ∀ value middle, Ending.Agree (next value middle) (following value middle)) :
    Ending.Agree ((action >>= next) machine) ((other >>= following) machine) := by
  cases first : action machine with
  | ok value middle =>
      rw [first] at now
      rw [Eval.bind_ok first, Eval.bind_ok now.eq_ok]
      exact later value middle
  | error stop middle =>
      rw [first] at now
      obtain ⟨also, second, same⟩ := now.exists_error
      rw [Eval.bind_error first, Eval.bind_error second]
      exact ⟨rfl, same.symm⟩

/-- Where the count of the forms starts makes no difference but in the log. -/
theorem evaluateFormsFrom_agree (fuel : Nat) (frame : FrameId) (forms : List Expr) (index other : Nat)
    (last : Value) (machine : Machine) :
    Ending.Agree (evaluateFormsFrom fuel frame index last forms machine)
      (evaluateFormsFrom fuel frame other last forms machine) := by
  induction forms generalizing index other last machine with
  | nil => exact .refl _
  | cons form forms inductionHypothesis =>
      unfold evaluateFormsFrom
      apply Ending.Agree.bind (Eval.onFault_agree _ _ _ machine)
      exact fun value middle => inductionHypothesis (index + 1) (other + 1) value middle

/-- Where forms stop, one of them does, and its own evaluation leaves the store. -/
theorem exists_failing_form {fuel : Nat} {frame : FrameId} {index : Nat} {last : Value}
    {forms : List Expr} {machine final : Machine} {stop : Stop}
    (stopped : evaluateFormsFrom fuel frame index last forms machine = .error stop final) :
    ∃ before form after value middle failed, forms = before ++ form :: after ∧
      evaluateFormsFrom fuel frame index last before machine = .ok value middle ∧
      evaluate fuel form frame middle = .error stop failed ∧ final.store = failed.store := by
  induction forms generalizing index last machine with
  | nil => cases stopped
  | cons form forms inductionHypothesis =>
      unfold evaluateFormsFrom at stopped
      cases ending : evaluate fuel form frame machine with
      | ok value middle =>
          rw [Eval.bind_ok (Eval.onFault_ok ending)] at stopped
          obtain ⟨before, failing, after, result, between, failed, split, passed, fails, same⟩ :=
            inductionHypothesis stopped
          refine ⟨form :: before, failing, after, result, between, failed, by rw [split]; rfl, ?_,
            fails, same⟩
          unfold evaluateFormsFrom
          rw [Eval.bind_ok (Eval.onFault_ok ending)]
          exact passed
      | error cause failed =>
          obtain ⟨logged, step, same⟩ :=
            Eval.onFault_error ending fun fault => .failed index form fault
          rw [Eval.bind_error step] at stopped
          cases stopped
          exact ⟨[], form, forms, last, machine, failed, rfl, rfl, ending, same⟩

/-!
### Texts one after another
-/

/-- The values of texts, each with the name it goes by, one after another in one frame. The first failure ends
    the run. -/
def runTexts (fuel : Nat) (frame : FrameId) : List (String × String) → Run (List Value)
  | [] => pure []
  | (source, text) :: inputs => do
    let value ← runText fuel source text frame
    let values ← runTexts fuel frame inputs
    pure (value :: values)

/-- Programs one after another in one frame, which is what is left of texts once they are read. -/
def runPrograms (fuel : Nat) (frame : FrameId) : List (List Expr) → Run (List Value)
  | [] => pure []
  | forms :: programs => do
    let value ← runForms fuel forms frame
    let values ← runPrograms fuel frame programs
    pure (value :: values)

theorem runTexts_eq_runPrograms (fuel : Nat) (frame : FrameId) {inputs : List (String × String)}
    {programs : List (List Expr)}
    (accepted : List.Forall₂ (fun input forms => read input.1 input.2 = .ok forms) inputs programs) :
    runTexts fuel frame inputs = runPrograms fuel frame programs := by
  induction accepted with
  | nil => rfl
  | @cons input forms inputs programs readable _ inductionHypothesis =>
      rw [runTexts, runPrograms, runText, readable, inductionHypothesis]

/-- The value of the last program that holds a form; the value that is given if none does. -/
def valueOfLast (given : Value) : List (List Expr) → List Value → Value
  | forms :: programs, value :: values =>
    valueOfLast (if forms.isEmpty then given else value) programs values
  | _, _ => given

/-- Forms that yield a value by themselves yield it behind others. -/
theorem evaluateFormsFrom_ok {fuel : Nat} {frame : FrameId} {forms : List Expr} {value : Value}
    {machine later : Machine} (passed : evaluateForms fuel forms frame machine = .ok value later)
    (index : Nat) (last : Value) :
    evaluateFormsFrom fuel frame index last forms machine =
      .ok (if forms.isEmpty then last else value) later := by
  cases forms with
  | nil =>
      cases passed
      rfl
  | cons form forms =>
      have agree := evaluateFormsFrom_agree fuel frame (form :: forms) 0 index (.list []) machine
      rw [← evaluateForms, passed] at agree
      exact agree.eq_ok

/-- Forms that stop by themselves stop behind others. -/
theorem evaluateFormsFrom_error {fuel : Nat} {frame : FrameId} {forms : List Expr}
    {machine later : Machine} {stop : Stop}
    (stopped : evaluateForms fuel forms frame machine = .error stop later) (index : Nat) (last : Value) :
    ∃ final, evaluateFormsFrom fuel frame index last forms machine = .error stop final ∧
      final.store = later.store := by
  cases forms with
  | nil => cases stopped
  | cons form forms =>
      have agree := evaluateFormsFrom_agree fuel frame (form :: forms) 0 index (.list []) machine
      rw [← evaluateForms, stopped] at agree
      exact agree.exists_error

theorem Run.ofEval_ok {α : Type} {action : Eval α} {machine later : Machine} {value : α}
    (ending : action machine = .ok value later) : Run.ofEval action machine = .ok value later := by
  rw [ofEval, EStateM.adaptExcept, ending]

theorem Run.ofEval_error {α : Type} {action : Eval α} {machine later : Machine} {stop : Stop}
    (ending : action machine = .error stop later) :
    Run.ofEval action machine = .error (.ofStop stop) later := by
  rw [ofEval, EStateM.adaptExcept, ending]

/-- How the forms of programs end, in one row behind a value, where the programs end one by one as they do. -/
def Replays (fuel : Nat) (frame : FrameId) (index : Nat) (last : Value) (programs : List (List Expr))
    (machine : Machine) : EStateM.Result Failure Machine (List Value) → Prop
  | .ok values later =>
    evaluateFormsFrom fuel frame index last programs.flatten machine =
      .ok (valueOfLast last programs values) later
  | .error failure later =>
    ∃ stop final, evaluateFormsFrom fuel frame index last programs.flatten machine = .error stop final ∧
      failure = .ofStop stop ∧ final.store = later.store

/-- The forms of programs in one row do what the programs do one by one. -/
theorem runPrograms_replays (fuel : Nat) (frame : FrameId) (programs : List (List Expr)) (index : Nat)
    (last : Value) (machine : Machine) :
    Replays fuel frame index last programs machine (runPrograms fuel frame programs machine) := by
  -- The forms of earlier programs count as passed, so position and value are any.
  induction programs generalizing index last machine with
  | nil => rfl
  | cons forms programs inductionHypothesis =>
      unfold runPrograms Replays
      rw [List.flatten_cons, evaluateFormsFrom_append]
      cases ending : evaluateForms fuel forms frame machine with
      | ok value middle =>
          have step : runForms fuel forms frame machine = .ok value middle := Run.ofEval_ok ending
          have behind := inductionHypothesis (index + forms.length)
            (if forms.isEmpty then last else value) middle
          rw [Eval.bind_ok (evaluateFormsFrom_ok ending index last)]
          simp only [Bind.bind, EStateM.bind, step]
          cases others : runPrograms fuel frame programs middle with
          | ok values later =>
              rw [others] at behind
              exact behind
          | error failure later =>
              rw [others] at behind
              exact behind
      | error stop middle =>
          have step : runForms fuel forms frame machine = .error (.ofStop stop) middle :=
            Run.ofEval_error ending
          obtain ⟨final, stopped, same⟩ := evaluateFormsFrom_error ending index last
          rw [Eval.bind_error stopped]
          simp only [Bind.bind, EStateM.bind, step]
          exact ⟨stop, final, rfl, rfl, same⟩

/-- Texts that are run one after another are run by the one text that holds them on lines of their own. If none
    fails, it yields the value of the last one that holds a form and leaves the same machine. If one fails, it
    fails alike and leaves the same store: that of the one form that failed, so no form behind it did
    anything. -/
theorem runText_joined (fuel : Nat) (frame : FrameId) (source : String) (machine : Machine)
    {inputs : List (String × String)} {programs : List (List Expr)}
    (accepted : List.Forall₂ (fun input forms => read input.1 input.2 = .ok forms) inputs programs) :
    (∀ values later, runTexts fuel frame inputs machine = .ok values later →
      runText fuel source ("\n".intercalate (inputs.map Prod.snd)) frame machine =
        .ok (valueOfLast (.list []) programs values) later) ∧
    ∀ failure later, runTexts fuel frame inputs machine = .error failure later →
      ∃ final, runText fuel source ("\n".intercalate (inputs.map Prod.snd)) frame machine =
          .error failure final ∧
        final.store = later.store ∧
        ∃ before form after value middle stop failed, programs.flatten = before ++ form :: after ∧
          evaluateForms fuel before frame machine = .ok value middle ∧
          evaluate fuel form frame middle = .error stop failed ∧
          failure = .ofStop stop ∧ later.store = failed.store := by
  have replays := runPrograms_replays fuel frame programs 0 (.list []) machine
  rw [← runTexts_eq_runPrograms fuel frame accepted] at replays
  have joined : runText fuel source ("\n".intercalate (inputs.map Prod.snd)) frame =
      runForms fuel programs.flatten frame := by
    rw [runText, read_intercalate source accepted]
  refine ⟨?_, ?_⟩
  · intro values later passed
    rw [passed] at replays
    rw [joined, runForms, evaluateForms, Run.ofEval_ok replays]
  · intro failure later failed
    rw [failed] at replays
    obtain ⟨stop, final, stopped, cause, same⟩ := replays
    obtain ⟨before, form, after, value, middle, left, split, passed, fails, store⟩ :=
      exists_failing_form stopped
    refine ⟨final, ?_, same, before, form, after, value, middle, stop, left, split, passed, fails,
      cause, same.symm.trans store⟩
    rw [joined, runForms, evaluateForms, Run.ofEval_error stopped, cause]

/-- Four texts, of which one ends in a comment, one holds no form and the third fails halfway. The text that
    holds them all fails alike and leaves the same store: what stood behind the failure is not bound. -/
theorem runText_joined_failing :
    let inputs := [("a", "(define x car) ; first"), ("b", "\n;nothing"),
      ("c", "(define y x) (x \x27()) (define z x)"), ("d", "(define w x)")]
    ∃ final, runText 9 "e" ("\n".intercalate (inputs.map Prod.snd)) Store.globalFrame (.ofStore .fresh) =
        .error (.fault (.emptyListAccess .car)) final ∧
      final.store.bindsLocally Store.globalFrame "y" = true ∧
      final.store.bindsLocally Store.globalFrame "z" = false ∧
      final.store.bindsLocally Store.globalFrame "w" = false := by
  intro inputs
  let bind (name value : String) : Expr := .list [.symbol "define", .symbol name, .symbol value]
  let programs : List (List Expr) := [[bind "x" "car"], [],
    [bind "y" "x", .list [.symbol "x", .quote (.list [])], bind "z" "x"], [bind "w" "x"]]
  have accepted : List.Forall₂ (fun input forms => read input.1 input.2 = .ok forms) inputs programs :=
    .cons (by cbv) (.cons (by cbv) (.cons (by cbv) (.cons (by cbv) .nil)))
  have observed : match runPrograms 9 Store.globalFrame programs (.ofStore .fresh) with
      | .ok _ _ => False
      | .error failure later => failure = .fault (.emptyListAccess .car) ∧
          later.store.bindsLocally Store.globalFrame "y" = true ∧
          later.store.bindsLocally Store.globalFrame "z" = false ∧
          later.store.bindsLocally Store.globalFrame "w" = false :=
    ⟨by rfl, by rfl, by rfl, by rfl⟩
  rw [← runTexts_eq_runPrograms 9 Store.globalFrame accepted] at observed
  cases ending : runTexts 9 Store.globalFrame inputs (.ofStore .fresh) with
  | ok values later =>
      rw [ending] at observed
      exact observed.elim
  | error failure later =>
      rw [ending] at observed
      obtain ⟨final, failed, same, _⟩ :=
        (runText_joined 9 Store.globalFrame "e" (.ofStore .fresh) accepted).2 failure later ending
      rw [observed.1] at failed
      refine ⟨final, failed, ?_⟩
      rw [same]
      exact observed.2

end LexLisp
