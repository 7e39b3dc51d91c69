/-
Module: LexLisp.Proofs.Grouping
Purpose: Sequences may be grouped at will. A program is evaluated form by form, and so is a sequence; a group
  inside a sequence is a sequence in its place, in the same frame. So forms that are put into groups, and these
  into groups again, do what the forms do: the same value or the same fault, the same store and the same events,
  but for the report of the form that failed. A group costs one level of the recursion and nothing else.
Main exports: Regroups, evaluateRow, RowOutlasts, Regroups.outlasts, Regroups.outlasted, Ending.withoutReports,
  Ends, evaluate_regrouped
-/
import LexLisp.Program
import LexLisp.Proofs.Fuel

namespace LexLisp

/-!
### Regrouping
-/

/-- A sequence of expressions as one expression. -/
def Expr.group (run : List Expr) : Expr :=
  .list (.symbol Keyword.sequence.name :: run)

/-- Forms in which runs of neighbours were put into groups, again and again and at every depth. -/
inductive Regroups : List Expr → List Expr → Prop where
  | refl (forms : List Expr) : Regroups forms forms
  /-- A run of neighbours becomes a group. -/
  | group {forms before run after : List Expr} (earlier : Regroups forms (before ++ run ++ after))
      (some : run ≠ []) : Regroups forms (before ++ .group run :: after)
  /-- What is in a group is regrouped there. -/
  | inside {forms before run inner after : List Expr}
      (earlier : Regroups forms (before ++ .group run :: after)) (some : run ≠ [])
      (within : Regroups run inner) : Regroups forms (before ++ .group inner :: after)

/-- No form is lost to a group of nothing. -/
theorem Regroups.ne_nil {forms grouped : List Expr} (regroups : Regroups forms grouped)
    (some : forms ≠ []) : grouped ≠ [] := by
  cases regroups with
  | refl => exact some
  | group | inside => simp

/-!
### Forms in a row

A row of forms is what a program and a sequence have in common: both are evaluated form by form, and neither the
value of an earlier form nor a report is left.
-/

/-- Forms in order, behind a value that is the value of no forms. -/
def evaluateRow (inner : Evaluator) (frame : FrameId) : Value → List Expr → Eval Value
  | last, [] => pure last
  | _, form :: forms => do
    let value ← inner form frame
    evaluateRow inner frame value forms

theorem evaluateRow_append (inner : Evaluator) (frame : FrameId) (last : Value) (forms more : List Expr) :
    evaluateRow inner frame last (forms ++ more) =
      (evaluateRow inner frame last forms >>= fun value => evaluateRow inner frame value more) := by
  induction forms generalizing last with
  | nil => simp [evaluateRow]
  | cons form forms inductionHypothesis =>
      simp only [List.cons_append, evaluateRow, inductionHypothesis, bind_assoc]

/-- A sequence is a row. -/
theorem evaluateRow_cons (inner : Evaluator) (frame : FrameId) (last : Value) (first : Expr)
    (rest : List Expr) :
    evaluateRow inner frame last (first :: rest) = evaluateSequence inner frame first rest := by
  induction rest generalizing first last with
  | nil => simp [evaluateRow, evaluateSequence]
  | cons next rest inductionHypothesis =>
      rw [evaluateRow, evaluateSequence]
      exact bind_congr fun value => inductionHypothesis value next

/-- A group is evaluated as the row of what is in it, one level deeper. -/
theorem evaluate_group (fuel : Nat) (frame : FrameId) (last : Value) {run : List Expr} (some : run ≠ []) :
    evaluate (fuel + 1) (.group run) frame = evaluateRow (evaluate fuel) frame last run := by
  cases run with
  | nil => exact absurd rfl some
  | cons first rest =>
      rw [evaluateRow_cons]
      rfl

theorem evaluateRow_outlasts {inner more : Evaluator} {frame : FrameId}
    (outlasts : Evaluator.Outlasts inner more) (last : Value) (forms : List Expr) :
    Eval.Outlasts (evaluateRow inner frame last forms) (evaluateRow more frame last forms) := by
  induction forms generalizing last with
  | nil => exact .refl _
  | cons form forms inductionHypothesis =>
      unfold evaluateRow
      exact .bind (outlasts form frame) fun value => inductionHypothesis value

theorem evaluateRow_singleton (inner : Evaluator) (frame : FrameId) (last : Value) (form : Expr) :
    evaluateRow inner frame last [form] = inner form frame := by
  simp [evaluateRow]

/-- Wherever a row finishes, the other ends as it does if it is given so much more fuel. -/
def RowOutlasts (frame : FrameId) (extra : Nat) (forms other : List Expr) : Prop :=
  ∀ fuel last, Eval.Outlasts (evaluateRow (evaluate fuel) frame last forms)
    (evaluateRow (evaluate (fuel + extra)) frame last other)

namespace RowOutlasts

variable {frame : FrameId} {extra : Nat}

theorem refl (frame : FrameId) (forms : List Expr) : RowOutlasts frame 0 forms forms :=
  fun _ _ => .refl _

theorem trans {further : Nat} {forms middle grouped : List Expr} (early : RowOutlasts frame extra forms middle)
    (late : RowOutlasts frame further middle grouped) :
    RowOutlasts frame (extra + further) forms grouped := by
  intro fuel last
  rw [← Nat.add_assoc]
  exact (early fuel last).trans (late (fuel + extra) last)

/-- A part of a row may be exchanged for one that outlasts it, with more fuel for all of the row. -/
theorem exchange {part other : List Expr} (outlasts : RowOutlasts frame extra part other)
    (before after : List Expr) :
    RowOutlasts frame extra (before ++ (part ++ after)) (before ++ (other ++ after)) := by
  intro fuel last
  have more : Evaluator.Outlasts (evaluate fuel) (evaluate (fuel + extra)) :=
    evaluate_outlasts (Nat.le_add_right fuel extra)
  simp only [evaluateRow_append]
  exact .bind (evaluateRow_outlasts more last before) fun value =>
    .bind (outlasts fuel value) fun value => evaluateRow_outlasts more value after

/-- Where a row finishes, it finishes in a group as well. -/
theorem group (frame : FrameId) {run : List Expr} (some : run ≠ []) :
    RowOutlasts frame 1 run [.group run] := by
  intro fuel last
  rw [evaluateRow_singleton, evaluate_group fuel frame last some]
  exact .refl _

/-- Groups are exchanged as what is in them is. -/
theorem groups {run inner : List Expr} (some : run ≠ []) (some' : inner ≠ [])
    (within : RowOutlasts frame extra run inner) :
    RowOutlasts frame extra [.group run] [.group inner] := by
  intro fuel last
  simp only [evaluateRow_singleton]
  cases fuel with
  | zero =>
      intro machine finished
      exact absurd rfl finished
  | succ fuel =>
      rw [evaluate_group fuel frame last some, Nat.succ_add, evaluate_group _ frame last some']
      exact within fuel last

/-- Where a group finishes, its row does. -/
theorem ungroup (frame : FrameId) {run : List Expr} (some : run ≠ []) :
    RowOutlasts frame 0 [.group run] run := by
  intro fuel last
  rw [evaluateRow_singleton]
  cases fuel with
  | zero =>
      intro machine finished
      exact absurd rfl finished
  | succ fuel =>
      rw [evaluate_group fuel frame last some]
      exact evaluateRow_outlasts (evaluate_outlasts (Nat.le_succ fuel)) last run

end RowOutlasts

/-- Forms that finish do so when they are regrouped, with some more fuel. -/
theorem Regroups.outlasts {forms grouped : List Expr} (regroups : Regroups forms grouped) (frame : FrameId) :
    ∃ extra, RowOutlasts frame extra forms grouped := by
  induction regroups with
  | refl forms => exact ⟨0, .refl frame forms⟩
  | @group forms before run after _ some inductionHypothesis =>
      obtain ⟨extra, outlasts⟩ := inductionHypothesis
      rw [List.append_assoc] at outlasts
      exact ⟨extra + 1, outlasts.trans ((RowOutlasts.group frame some).exchange before after)⟩
  | @inside forms before run inner after _ some within inductionHypothesis inside =>
      obtain ⟨extra, outlasts⟩ := inductionHypothesis
      obtain ⟨further, outlastsInside⟩ := inside
      have groups := outlastsInside.groups some (within.ne_nil some)
      exact ⟨extra + further, outlasts.trans (groups.exchange before after)⟩

/-- Regrouped forms that finish do so without their groups, with no more fuel. -/
theorem Regroups.outlasted {forms grouped : List Expr} (regroups : Regroups forms grouped)
    (frame : FrameId) : RowOutlasts frame 0 grouped forms := by
  induction regroups with
  | refl forms => exact .refl frame forms
  | @group forms before run after _ some inductionHypothesis =>
      rw [List.append_assoc] at inductionHypothesis
      exact ((RowOutlasts.ungroup frame some).exchange before after).trans inductionHypothesis
  | @inside forms before run inner after _ some within inductionHypothesis inside =>
      have groups := inside.groups (within.ne_nil some) some
      exact (groups.exchange before after).trans inductionHypothesis

/-!
### What a run comes to

The fuel is left out, and so is the report of the form that failed, which only the forms of a program have.
-/

/-- The report of the form of a program that failed. -/
def Event.isReport : Event → Bool
  | .failed _ _ _ => true
  | _ => false

/-- A machine without reports in its log. -/
def Machine.withoutReports (machine : Machine) : Machine :=
  { machine with log := machine.log.filter fun event => !event.isReport }

theorem Machine.withoutReports_push {event : Event} (report : event.isReport = true) (machine : Machine) :
    Machine.withoutReports { machine with log := machine.log.push event } = machine.withoutReports := by
  simp [withoutReports, report]

/-- An ending without reports in the log: the value or the stop, the store, and the calls, definitions and
    assignments in their order. -/
def Ending.withoutReports {α : Type} : Ending α → Ending α
  | .ok value machine => .ok value machine.withoutReports
  | .error stop machine => .error stop machine.withoutReports

theorem Ending.finished_withoutReports {α : Type} (ending : Ending α) :
    ending.withoutReports.Finished ↔ ending.Finished := by
  cases ending <;> exact Iff.rfl

/-- How a run ends that is given enough fuel, but for reports. A run that never finishes has no such ending. -/
def Ends (run : Nat → Eval Value) (machine : Machine) (ending : Ending Value) : Prop :=
  ending.Finished ∧ ∃ fuel, Ending.withoutReports (run fuel machine) = ending

/-- A run ends as one that it outlasts, however much more fuel it takes. -/
theorem Ends.of_outlasts {run other : Nat → Eval Value} (extra : Nat)
    (outlasts : ∀ fuel, Eval.Outlasts (run fuel) (other (fuel + extra))) {machine : Machine}
    {ending : Ending Value} (ends : Ends run machine ending) : Ends other machine ending := by
  obtain ⟨finished, fuel, rfl⟩ := ends
  have same := outlasts fuel machine ((Ending.finished_withoutReports _).mp finished)
  exact ⟨finished, fuel + extra, by rw [same]⟩

/-- The forms of a program are evaluated as a row, but for the report of a failure. -/
theorem evaluateFormsFrom_withoutReports (fuel : Nat) (frame : FrameId) (forms : List Expr) (index : Nat)
    (last : Value) (machine : Machine) :
    Ending.withoutReports (evaluateFormsFrom fuel frame index last forms machine) =
      Ending.withoutReports (evaluateRow (evaluate fuel) frame last forms machine) := by
  induction forms generalizing index last machine with
  | nil => rfl
  | cons form forms inductionHypothesis =>
      unfold evaluateFormsFrom evaluateRow
      cases ending : evaluate fuel form frame machine with
      | ok value later =>
          rw [Eval.bind_ok (Eval.onFault_ok ending), Eval.bind_ok ending]
          exact inductionHypothesis (index + 1) value later
      | error stop later =>
          rw [Eval.bind_error ending]
          cases stop with
          | outOfFuel =>
              have step : (evaluate fuel form frame).onFault (fun fault => .failed index form fault) machine =
                  .error .outOfFuel later := by rw [Eval.onFault, ending]
              rw [Eval.bind_error step]
          | fault fault =>
              have step : (evaluate fuel form frame).onFault (fun fault => .failed index form fault) machine =
                  .error (.fault fault) { later with log := later.log.push (.failed index form fault) } := by
                rw [Eval.onFault, ending]
              rw [Eval.bind_error step]
              exact congrArg (EStateM.Result.error _) (Machine.withoutReports_push rfl later)

/-- A program ends as the row of its forms. -/
theorem ends_evaluateForms (forms : List Expr) (frame : FrameId) (machine : Machine) (ending : Ending Value) :
    Ends (evaluateForms · forms frame) machine ending ↔
      Ends (fun fuel => evaluateRow (evaluate fuel) frame (.list []) forms) machine ending := by
  simp only [Ends, evaluateForms, evaluateFormsFrom_withoutReports]

/-- The one tree of some forms ends as the row of them. -/
theorem ends_sequence {forms : List Expr} {tree : Expr} (whole : Expr.sequence forms = .some tree)
    (frame : FrameId) (machine : Machine) (ending : Ending Value) :
    Ends (evaluate · tree frame) machine ending ↔
      Ends (fun fuel => evaluateRow (evaluate fuel) frame (.list []) forms) machine ending := by
  match forms, whole with
  | [form], rfl => simp only [evaluateRow_singleton]
  | first :: next :: rest, rfl =>
      have some : first :: next :: rest ≠ [] := List.cons_ne_nil _ _
      have grouped : ∀ fuel, evaluate fuel (.group (first :: next :: rest)) frame =
          evaluateRow (evaluate fuel) frame (.list []) [.group (first :: next :: rest)] :=
        fun fuel => (evaluateRow_singleton _ _ _ _).symm
      constructor
      · refine Ends.of_outlasts 0 fun fuel => ?_
        exact (grouped fuel).symm ▸ RowOutlasts.ungroup frame some fuel (.list [])
      · refine Ends.of_outlasts 1 fun fuel => ?_
        exact (grouped (fuel + 1)).symm ▸ RowOutlasts.group frame some fuel (.list [])

theorem Expr.exists_sequence {forms : List Expr} (some : forms ≠ []) :
    ∃ tree, Expr.sequence forms = .some tree := by
  match forms with
  | [] => exact absurd rfl some
  | [form] => exact ⟨form, rfl⟩
  | first :: next :: rest => exact ⟨_, rfl⟩

/-- Grouping changes nothing. Some forms as a program, all of them as one tree, the forms regrouped as a program,
    and all of these as one tree finish in the same cases and in the same way: with the same value or the same
    fault, the same store and the same calls, definitions and assignments in the log. -/
theorem evaluate_regrouped {forms grouped : List Expr} (some : forms ≠ []) (regroups : Regroups forms grouped)
    (frame : FrameId) :
    ∃ whole tree, Expr.sequence forms = .some whole ∧ Expr.sequence grouped = .some tree ∧
      ∀ machine ending,
        (Ends (evaluate · whole frame) machine ending ↔ Ends (evaluateForms · forms frame) machine ending) ∧
        (Ends (evaluateForms · grouped frame) machine ending ↔
          Ends (evaluateForms · forms frame) machine ending) ∧
        (Ends (evaluate · tree frame) machine ending ↔ Ends (evaluateForms · forms frame) machine ending) := by
  obtain ⟨whole, isWhole⟩ := Expr.exists_sequence some
  obtain ⟨tree, isTree⟩ := Expr.exists_sequence (regroups.ne_nil some)
  obtain ⟨extra, outlasts⟩ := regroups.outlasts frame
  refine ⟨whole, tree, isWhole, isTree, fun machine ending => ?_⟩
  have same : Ends (fun fuel => evaluateRow (evaluate fuel) frame (.list []) grouped) machine ending ↔
      Ends (fun fuel => evaluateRow (evaluate fuel) frame (.list []) forms) machine ending :=
    ⟨.of_outlasts 0 fun fuel => regroups.outlasted frame fuel _,
      .of_outlasts extra fun fuel => outlasts fuel _⟩
  rw [ends_evaluateForms, ends_evaluateForms, ends_sequence isWhole, ends_sequence isTree]
  exact ⟨Iff.rfl, same, same⟩

/-- A definition and an assignment that fails are put into groups, the second inside the first. The one tree of
    it all fails as the forms do, with the definition done. -/
theorem evaluate_regrouped_failing :
    let bind : Expr := .list [.symbol "define", .symbol "x", .symbol "car"]
    let assign : Expr := .list [.symbol "set!", .symbol "y", .symbol "x"]
    let forms : List Expr := [bind, assign, .symbol "x"]
    let grouped : List Expr := [.group [bind, .group [assign]], .symbol "x"]
    let ending : Ending Value :=
      Ending.withoutReports (evaluateForms 2 forms Store.globalFrame (.ofStore .fresh))
    Regroups forms grouped ∧ ending.outcome = .error (.fault (.unboundVariable "y")) ∧
      ending.store.bindsLocally Store.globalFrame "x" = true ∧
        Ends (evaluate · (.group grouped) Store.globalFrame) (.ofStore .fresh) ending := by
  intro bind assign forms grouped ending
  have one : Regroups forms [.group [bind, assign], .symbol "x"] :=
    @Regroups.group forms [] [bind, assign] [.symbol "x"] (.refl forms) (List.cons_ne_nil _ _)
  have two : Regroups [bind, assign] [bind, .group [assign]] :=
    @Regroups.group [bind, assign] [bind] [assign] [] (.refl _) (List.cons_ne_nil _ _)
  have regroups : Regroups forms grouped :=
    @Regroups.inside forms [] [bind, assign] _ [.symbol "x"] one (List.cons_ne_nil _ _) two
  have failed : ending.outcome = .error (.fault (.unboundVariable "y")) := by rfl
  have ends : Ends (evaluateForms · forms Store.globalFrame) (.ofStore .fresh) ending := by
    refine ⟨?_, 2, rfl⟩
    rw [Ending.Finished, failed]
    simp
  obtain ⟨whole, tree, _, isTree, same⟩ :=
    evaluate_regrouped (List.cons_ne_nil _ _) regroups Store.globalFrame
  obtain rfl : Expr.group grouped = tree := Option.some.inj isTree
  exact ⟨regroups, failed, by rfl, (same _ ending).2.2.mpr ends⟩

end LexLisp
