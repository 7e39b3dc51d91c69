/-
Module: LexLisp.Proofs.EventLog
Purpose: What the log of a run tells. Calls, definitions and assignments are logged by the evaluation that makes them,
  just before it does; every event of a run is traced to one such evaluation, and the log was then at just that point.
  The one report of a failure is added behind all of them. So the log of a program that fails names the form that
  failed, its place and the fault, in events and in the entries that they are written as; and an assignment that is
  logged is made, or it is the last that happens.
Main exports: Task.Records, Recorded, Traced, Task.traced, eventsOf, StopsAt, AssignmentSettled, RunEvents,
  RunLog, RunEvents.runLog, log_identifies_failure
-/
import LexLisp.LogEntry
import LexLisp.Proofs.LogIndependence
import LexLisp.Proofs.Provenance

namespace LexLisp

/-!
### Where events come from
-/

namespace Task

/-- An evaluation logs an event itself, on this machine: a call with its operands, or a name with its value. -/
inductive Records : Task → Event → Machine → Prop where
  | apply {fuel : Nat} {head : Expr} {operands : List Expr} {frame : FrameId} {callee : Value}
      {values : List Value} {machine middle last : Machine} (plain : Keyword.ofHead? head = none)
      (atHead : evaluateOperator (evaluate fuel) head frame machine = .ok callee middle)
      (inTurn : InTurn fuel frame operands middle values last) :
      Records ⟨fuel + 1, .list (head :: operands), frame, machine⟩ (.apply head.text values.length) last
  | define {fuel : Nat} {head body : Expr} {name : String} {frame : FrameId} {value : Value}
      {machine reached : Machine} (named : Keyword.ofHead? head = some .define)
      (evaluated : evaluate fuel body frame machine = .ok value reached) :
      Records ⟨fuel + 1, .list [head, .symbol name, body], frame, machine⟩ (.define name value) reached
  | assign {fuel : Nat} {head body : Expr} {name : String} {frame : FrameId} {value : Value}
      {machine reached : Machine} (named : Keyword.ofHead? head = some .assign)
      (evaluated : evaluate fuel body frame machine = .ok value reached) :
      Records ⟨fuel + 1, .list [head, .symbol name, body], frame, machine⟩ (.assign name value) reached

/-- Only a program reports a failure, and no evaluation does. -/
theorem Records.isReport_eq_false {origin : Task} {event : Event} {moment : Machine}
    (records : origin.Records event moment) : event.isReport = false := by
  cases records <;> rfl

end Task

/-- New events behind the log of a machine: each was logged by one of the evaluations in question, when the log was at
    just that point. -/
def Recorded (source : Task → Prop) (start : Machine) (events : List Event) : Prop :=
  ∀ before event after, events = before ++ event :: after →
    ∃ origin moment, source origin ∧ origin.Records event moment ∧ moment.log.toList = start.log.toList ++ before

theorem Recorded.isReport_eq_false {source : Task → Prop} {start : Machine} {events : List Event}
    (recorded : Recorded source start events) : ∀ event ∈ events, event.isReport = false := by
  intro event member
  obtain ⟨before, after, split⟩ := List.append_of_mem member
  obtain ⟨origin, moment, _, records, _⟩ := recorded before event after split
  exact records.isReport_eq_false

/-- The log has grown from one machine to another by events that are recorded. -/
def Traced (source : Task → Prop) (start later : Machine) : Prop :=
  ∃ events, later.log.toList = start.log.toList ++ events ∧ Recorded source start events

namespace Traced

variable {α β : Type} {source : Task → Prop} {start middle later machine : Machine}

theorem of_log_eq (same : later.log = start.log) : Traced source start later :=
  ⟨[], by simp [same], fun _ _ _ split => by simp at split⟩

theorem record {origin : Task} {event : Event} (mine : source origin) (records : origin.Records event start)
    (pushed : later.log = start.log.push event) : Traced source start later := by
  refine ⟨[event], by simp [pushed], fun before logged after split => ?_⟩
  cases before with
  | nil =>
      cases split
      exact ⟨origin, start, mine, records, (List.append_nil _).symm⟩
  | cons first before => simp at split

theorem trans (early : Traced source start middle) (late : Traced source middle later) :
    Traced source start later := by
  obtain ⟨events, grown, recorded⟩ := early
  obtain ⟨more, grownMore, recordedMore⟩ := late
  refine ⟨events ++ more, by rw [grownMore, grown, List.append_assoc], fun before event after split => ?_⟩
  rcases List.append_eq_append_iff.mp split with ⟨cut, rfl, rest⟩ | ⟨cut, whole, rest⟩
  · obtain ⟨origin, moment, mine, records, point⟩ := recordedMore cut event after rest
    exact ⟨origin, moment, mine, records, by rw [point, grown, List.append_assoc]⟩
  · cases cut with
    | nil =>
        obtain ⟨origin, moment, mine, records, point⟩ := recordedMore [] event after rest.symm
        exact ⟨origin, moment, mine, records, by rw [point, grown, whole, List.append_nil, List.append_nil]⟩
    | cons first cut =>
        cases rest
        exact recorded before event cut whole

theorem mono {wider : Task → Prop} (traced : Traced source start later)
    (included : ∀ origin, source origin → wider origin) : Traced wider start later := by
  obtain ⟨events, grown, recorded⟩ := traced
  refine ⟨events, grown, fun before event after split => ?_⟩
  obtain ⟨origin, moment, mine, rest⟩ := recorded before event after split
  exact ⟨origin, moment, included origin mine, rest⟩

/-- Two actions in sequence: the second adds to what the first has logged. -/
theorem bind {action : Eval β} {next : β → Eval α} (now : Traced source machine (Ending.machine (action machine)))
    (rest : ∀ value later, action machine = .ok value later →
      Traced source later (Ending.machine (next value later))) :
    Traced source machine (Ending.machine ((action >>= next) machine)) := by
  cases ending : action machine with
  | ok value later =>
      rw [ending] at now
      rw [Eval.bind_ok ending]
      exact now.trans (rest value later ending)
  | error stop later =>
      rw [ending] at now
      rw [Eval.bind_error ending]
      exact now

section Turns

variable {fuel : Nat} {frame : FrameId} {expressions : List Expr} {values : List Value} {stop : Stop}

/-- Expressions in turn log what each of them does. -/
theorem inTurn (each : ∀ part reached, TurnOf fuel frame expressions machine part reached →
      Traced source reached (Ending.machine (evaluate fuel part frame reached)))
    (inTurn : InTurn fuel frame expressions machine values later) : Traced source machine later := by
  induction inTurn with
  | done => exact of_log_eq rfl
  | next first _ inductionHypothesis =>
      have now := each _ _ (.now _ _ _)
      rw [first] at now
      exact now.trans (inductionHypothesis fun part reached turn => each part reached (.later first turn))

theorem stopsInTurn (each : ∀ part reached, TurnOf fuel frame expressions machine part reached →
      Traced source reached (Ending.machine (evaluate fuel part frame reached)))
    (stops : StopsInTurn fuel frame expressions machine stop later) : Traced source machine later := by
  obtain ⟨part, reached, turn, stopped⟩ := stops
  induction turn with
  | now expression expressions machine =>
      have now := each _ _ (.now expression expressions machine)
      rwa [stopped] at now
  | later first _ inductionHypothesis =>
      have now := each _ _ (.now _ _ _)
      rw [first] at now
      exact now.trans (inductionHypothesis (fun part reached turn => each part reached (.later first turn)) stopped)

theorem operands (each : ∀ part reached, TurnOf fuel frame expressions machine part reached →
      Traced source reached (Ending.machine (evaluate fuel part frame reached))) :
    Traced source machine (Ending.machine (evaluateOperands (evaluate fuel) frame expressions machine)) := by
  cases ending : evaluateOperands (evaluate fuel) frame expressions machine with
  | ok values later => exact .inTurn each (inTurn_of_evaluateOperands ending)
  | error stop later => exact .stopsInTurn each (evaluateOperands_eq_error_iff.mp ending)

theorem row {before : Value} (each : ∀ part reached, TurnOf fuel frame expressions machine part reached →
      Traced source reached (Ending.machine (evaluate fuel part frame reached))) :
    Traced source machine (Ending.machine (evaluateRow (evaluate fuel) frame before expressions machine)) := by
  cases ending : evaluateRow (evaluate fuel) frame before expressions machine with
  | ok value later =>
      obtain ⟨values, inTurn⟩ := exists_inTurn_of_evaluateRow ending
      exact .inTurn each inTurn
  | error stop later => exact .stopsInTurn each (evaluateRow_eq_error_iff.mp ending)

end Turns

end Traced

namespace Task

section Steps

variable {fuel : Nat} {frame : FrameId} {machine : Machine} {source : Task → Prop} {head : Expr}
  {operands : List Expr}

/-- A special form logs what its parts do, and then the name that it binds or assigns. -/
theorem traced_form {keyword : Keyword} (named : Keyword.ofHead? head = some keyword)
    (mine : source ⟨fuel + 1, .list (head :: operands), frame, machine⟩)
    (each : ∀ part reached, FormCalls fuel frame machine keyword operands part reached →
      Traced source reached (Ending.machine (evaluate fuel part frame reached))) :
    Traced source machine (Ending.machine (evaluateForm (evaluate fuel) keyword operands frame machine)) := by
  generalize ended : evaluateForm (evaluate fuel) keyword operands frame machine = ending
  unfold evaluateForm at ended
  split at ended <;> subst ended
  · -- quote
    exact .of_log_eq rfl
  · -- define
    next target body =>
      cases target with
      | symbol name =>
          simp only [bindingName, Eval.ofExcept_ok]
          rw [Eval.bind_ok (Eval.pure_apply _ _)]
          refine .bind (each body machine .defined) fun value reached evaluated => ?_
          exact .record mine (.define named evaluated) rfl
      | number | list => exact .of_log_eq rfl
  · -- set!
    next target body =>
      cases target with
      | symbol name =>
          simp only [bindingName, Eval.ofExcept_ok]
          rw [Eval.bind_ok (Eval.pure_apply _ _)]
          refine .bind (each body machine .assigned) fun value reached evaluated => ?_
          apply Traced.bind (.record mine (.assign named evaluated) rfl)
          intro _ logged _
          cases found : logged.store.nearest? frame name with
          | some link =>
              rw [Eval.bind_ok (Eval.assign_some found)]
              exact .of_log_eq rfl
          | none =>
              rw [Eval.bind_error (Eval.assign_none found)]
              exact .of_log_eq rfl
      | number | list => exact .of_log_eq rfl
  · -- begin
    next first rest =>
      rw [← evaluateRow_cons (evaluate fuel) frame (.list [])]
      exact .row fun part reached turn => each part reached (.sequenced turn)
  · -- if
    next condition consequent alternative =>
      refine .bind (each condition machine .condition) fun value reached decided => ?_
      split
      · exact each consequent reached (.branch decided)
      · exact each alternative reached (.branch decided)
      · exact .of_log_eq rfl
  · -- lambda
    next parameters body =>
      cases parametersOf parameters <;> exact .of_log_eq rfl
  · -- lambda-one
    next parameter body =>
      cases bindingName .lambdaOne parameter <;> exact .of_log_eq rfl
  · exact .of_log_eq rfl

/-- A search is not logged. -/
theorem traced_symbol (missing : String → Fault) (name : String) :
    Traced source machine (Ending.machine (evaluateSymbol missing name frame machine)) := by
  rw [evaluateSymbol]
  cases truth? name with
  | some truth => exact .of_log_eq rfl
  | none =>
      cases found : machine.store.lookup? frame name with
      | some value =>
          simp only [Eval.lookup_some found]
          exact .of_log_eq rfl
      | none =>
          simp only [Eval.lookup_none found]
          exact .of_log_eq rfl

/-- The head of an application logs something only if it is compound. -/
theorem traced_operator
    (compound : ∀ items, head = .list items →
      Traced source machine (Ending.machine (evaluate fuel head frame machine))) :
    Traced source machine (Ending.machine (evaluateOperator (evaluate fuel) head frame machine)) := by
  apply Traced.bind
  · cases head with
    | number value => cases fuel <;> exact .of_log_eq rfl
    | list items => exact compound items rfl
    | symbol name => exact traced_symbol _ name
  · intro callee middle _
    split
    · exact .of_log_eq rfl
    · exact .of_log_eq rfl

/-- A call is logged before anything else, and then the body of a closure logs what it does. -/
theorem traced_apply {callee : Value} {values : List Value} {middle last : Machine}
    (plain : Keyword.ofHead? head = none)
    (atHead : evaluateOperator (evaluate fuel) head frame machine = .ok callee middle)
    (inTurn : InTurn fuel frame operands middle values last)
    (mine : source ⟨fuel + 1, .list (head :: operands), frame, machine⟩)
    (each : ∀ part, Calls ⟨fuel + 1, .list (head :: operands), frame, machine⟩ part →
      Traced source part.machine part.ending.machine) :
    Traced source last (Ending.machine (applyWith (evaluate fuel) callee values head.text last)) := by
  have records : Records ⟨fuel + 1, .list (head :: operands), frame, machine⟩
    (.apply head.text values.length) last := .apply plain atHead inTurn
  cases callee with
  | closure closure =>
      by_cases counts : closure.parameters.length = values.length
      · rw [applyWith_closure counts]
        exact Traced.trans (.record mine records rfl) (each _ (.call plain atHead inTurn counts))
      · rw [applyWith, Eval.bind_ok (Eval.record_apply _ _)]
        rw [Eval.bind_error (Eval.enter_of_counts_ne counts)]
        exact .record mine records rfl
  | primitive primitive =>
      rw [applyWith, Eval.bind_ok (Eval.record_apply _ _)]
      cases primitive.call values <;> exact .record mine records rfl
  | number | symbol | boolean | list => exact .record mine records rfl

/-- What an evaluation logs is traced to itself, or to the evaluations that it hands over to. -/
theorem traced_of_calls {task : Task} (mine : source task)
    (each : ∀ part, task.Calls part → Traced source part.machine part.ending.machine) :
    Traced source task.machine task.ending.machine := by
  obtain ⟨fuel, expression, frame, machine⟩ := task
  rw [ending]
  cases fuel with
  | zero => exact .of_log_eq rfl
  | succ fuel =>
      cases expression with
      | number value => exact .of_log_eq rfl
      | symbol name => exact traced_symbol _ name
      | list items =>
          cases items with
          | nil => exact .of_log_eq rfl
          | cons head operands =>
              cases named : Keyword.ofHead? head with
              | some keyword =>
                  simp only [evaluate_form named]
                  exact traced_form named mine fun part reached inForm => each _ (.form named inForm)
              | none =>
                  simp only [evaluate_application named]
                  refine .bind (traced_operator ?_) fun callee middle atHead => ?_
                  · rintro items rfl
                    exact each _ .operator
                  · refine .bind (.operands fun part reached turn => each _ (.operand named atHead turn)) ?_
                    intro values last evaluated
                    exact traced_apply named atHead (inTurn_of_evaluateOperands evaluated) mine each

end Steps

/-- Every event of an evaluation was logged by it or by one below it. -/
theorem traced (task : Task) : Traced (Relation.ReflTransGen Calls task) task.machine task.ending.machine := by
  apply traced_of_calls .refl
  intro part calls
  have deeper := calls.fuel_lt
  exact (traced part).mono fun origin below => .head calls below
termination_by task.fuel

end Task

/-!
### The forms of a program
-/

/-- The events of forms, one after another, each evaluated on an empty log where the form before left the store; up to
    the first form that stops, and with its events. -/
def eventsOf (fuel : Nat) (frame : FrameId) : List Expr → Store → List Event
  | [], _ => []
  | form :: forms, store =>
    match evaluate fuel form frame (.ofStore store) with
    | .ok _ machine => machine.log.toList ++ eventsOf fuel frame forms machine.store
    | .error _ machine => machine.log.toList

section Programs

variable {fuel : Nat} {frame : FrameId} {forms : List Expr} {machine reached moment : Machine} {form : Expr}

/-- The events of forms are the new ones: what stands in the log before them makes no difference. -/
theorem eventsOf_of_ok {value : Value} (evaluated : evaluate fuel form frame machine = .ok value reached)
    (forms : List Expr) :
    machine.log.toList ++ eventsOf fuel frame (form :: forms) machine.store =
      reached.log.toList ++ eventsOf fuel frame forms reached.store := by
  rw [evaluate_behind] at evaluated
  rw [eventsOf]
  cases own : evaluate fuel form frame (.ofStore machine.store) with
  | ok _ later =>
      rw [own] at evaluated
      cases evaluated
      simp [Machine.behind]
  | error stop later =>
      rw [own] at evaluated
      cases evaluated

theorem eventsOf_of_error {stop : Stop} (stopped : evaluate fuel form frame machine = .error stop moment)
    (forms : List Expr) :
    moment.log.toList = machine.log.toList ++ eventsOf fuel frame (form :: forms) machine.store := by
  rw [evaluate_behind] at stopped
  rw [eventsOf]
  cases own : evaluate fuel form frame (.ofStore machine.store) with
  | ok value later =>
      rw [own] at stopped
      cases stopped
  | error _ later =>
      rw [own] at stopped
      cases stopped
      simp [Machine.behind]

/-- The form at a position stops, and those before it yield values. -/
structure StopsAt (fuel : Nat) (frame : FrameId) (forms : List Expr) (machine : Machine) (index : Nat) (form : Expr)
    (stop : Stop) (moment : Machine) : Prop where
  listed : forms[index]? = some form
  inOrder : ∃ values reached, InTurn fuel frame (forms.take index) machine values reached ∧
    evaluate fuel form frame reached = .error stop moment

theorem StopsAt.stopsInTurn {index : Nat} {stop : Stop}
    (stops : StopsAt fuel frame forms machine index form stop moment) :
    StopsInTurn fuel frame forms machine stop moment := by
  obtain ⟨listed, values, reached, inTurn, stopped⟩ := stops
  induction index generalizing forms machine values with
  | zero =>
      cases forms with
      | nil => cases listed
      | cons first rest =>
          cases listed
          cases inTurn with
          | done => exact ⟨form, reached, .now form rest reached, stopped⟩
  | succ index inductionHypothesis =>
      cases forms with
      | nil => cases listed
      | cons first rest =>
          cases inTurn with
          | next evaluated others =>
              obtain ⟨part, reached, turn, stopped⟩ := inductionHypothesis listed _ others
              exact ⟨part, reached, .later evaluated turn, stopped⟩

/-- The events up to a form that stops are those of the forms before it and its own. -/
theorem StopsAt.log_eq {index : Nat} {stop : Stop} (stops : StopsAt fuel frame forms machine index form stop moment) :
    moment.log.toList = machine.log.toList ++ eventsOf fuel frame (forms.take (index + 1)) machine.store := by
  obtain ⟨listed, values, reached, inTurn, stopped⟩ := stops
  rw [List.take_add_one, listed]
  generalize forms.take index = early at inTurn
  induction inTurn with
  | done machine => exact eventsOf_of_error stopped []
  | next first _ inductionHypothesis =>
      rw [List.cons_append, eventsOf_of_ok first]
      exact inductionHypothesis stopped

/-- What a program adds to the log where a form stops: a fault is reported, the end of the fuel is not. -/
def Stop.reports (index : Nat) (form : Expr) : Stop → List Event
  | .fault cause => [.failed index form cause]
  | .outOfFuel => []

/-- Forms all yield values, or one of them stops, and then the log has the report behind all else. -/
theorem evaluateFormsFrom_cases (start : Nat) (before : Value) :
    (∃ values value later, InTurn fuel frame forms machine values later ∧
      evaluateFormsFrom fuel frame start before forms machine = .ok value later) ∨
    ∃ index form stop moment later, StopsAt fuel frame forms machine index form stop moment ∧
      evaluateFormsFrom fuel frame start before forms machine = .error stop later ∧ later.store = moment.store ∧
      later.log.toList = moment.log.toList ++ stop.reports (start + index) form := by
  induction forms generalizing machine start before with
  | nil => exact .inl ⟨[], before, machine, .done machine, rfl⟩
  | cons form forms inductionHypothesis =>
      rw [evaluateFormsFrom]
      cases ending : evaluate fuel form frame machine with
      | ok value middle =>
          rw [Eval.bind_ok (Eval.onFault_ok ending)]
          rcases @inductionHypothesis middle (start + 1) value with
            ⟨values, last, later, inTurn, same⟩ |
            ⟨index, part, stop, moment, later, ⟨listed, values, reached, inTurn, stopped⟩, same, stored, logged⟩
          · exact .inl ⟨value :: values, last, later, .next ending inTurn, same⟩
          · rw [Nat.add_right_comm] at logged
            exact .inr ⟨index + 1, part, stop, moment, later,
              ⟨listed, value :: values, reached, .next ending inTurn, stopped⟩, same, stored, logged⟩
      | error stop moment =>
          have stops : StopsAt fuel frame (form :: forms) machine 0 form stop moment :=
            ⟨rfl, [], machine, .done machine, ending⟩
          cases stop with
          | fault fault =>
              rw [Eval.bind_error (Eval.onFault_fault ending _)]
              exact .inr ⟨0, form, .fault fault, moment, _, stops, rfl, rfl, by simp [Stop.reports]⟩
          | outOfFuel =>
              have passed : (evaluate fuel form frame).onFault (.failed start form) machine =
                  .error .outOfFuel moment := by rw [Eval.onFault, ending]
              rw [Eval.bind_error passed]
              exact .inr ⟨0, form, .outOfFuel, moment, moment, stops, rfl, rfl, by simp [Stop.reports]⟩

/-- An evaluation of a program: a form of it that has its turn, or one below it. -/
def Task.Within (fuel : Nat) (frame : FrameId) (forms : List Expr) (machine : Machine) (origin : Task) : Prop :=
  ∃ form reached, TurnOf fuel frame forms machine form reached ∧
    Relation.ReflTransGen Task.Calls ⟨fuel, form, frame, reached⟩ origin

theorem traced_turnOf (turn : TurnOf fuel frame forms machine form reached) :
    Traced (Task.Within fuel frame forms machine) reached (Ending.machine (evaluate fuel form frame reached)) :=
  (Task.traced ⟨fuel, form, frame, reached⟩).mono fun _ below => ⟨form, reached, turn, below⟩

/-- What becomes of an assignment that is logged: it is made, and nothing happens in between; or there is no binding,
    and the program fails there and then. -/
theorem Task.Within.assign_followed {origin : Task} (within : Task.Within fuel frame forms machine origin)
    {name : String} {value : Value} (records : origin.Records (.assign name value) moment) :
    (∃ link, moment.store.nearest? origin.frame name = some link ∧
      origin.ending = .ok (.symbol name)
        ⟨moment.store.define link name value, moment.log.push (.assign name value)⟩) ∨
    moment.store.nearest? origin.frame name = none ∧ ∃ index form,
      evaluateForms fuel forms frame machine = .error (.fault (.unboundVariable name))
        (Machine.report ⟨moment.store, moment.log.push (.assign name value)⟩ index form (.unboundVariable name)) := by
  obtain ⟨form, reached, turn, below⟩ := within
  cases records with
  | @assign inner head body _ home _ start _ named evaluated =>
      cases found : moment.store.nearest? home name with
      | some link =>
          exact .inl ⟨link, rfl, evaluate_assign_of_named named evaluated found⟩
      | none =>
          have missed := Task.Misses.ending_eq (.assignment named evaluated found)
          obtain ⟨index, failed⟩ :=
            turn.evaluateFormsFrom_fault (Task.ending_eq_of_reflTransGen below missed) 0 (.list [])
          exact .inr ⟨rfl, index, form, failed⟩

end Programs

/-!
### The log of a run
-/

/-- What follows an assignment that an evaluation has logged: the nearest binding is changed, and the evaluation ends
    with that; or there is none, and the run ends with this fault, on the store as it is, with the report of it as the
    only further event. -/
def AssignmentSettled (origin : Task) (moment : Machine) (name : String) (value : Value)
    (outcome : Except Failure Value) (later : Session) (after : List Event) : Prop :=
  (∃ link, moment.store.nearest? origin.frame name = some link ∧
    origin.ending = .ok (.symbol name)
      ⟨moment.store.define link name value, moment.log.push (.assign name value)⟩) ∨
  moment.store.nearest? origin.frame name = none ∧ outcome = .error (.fault (.unboundVariable name)) ∧
    later.store = moment.store ∧ ∃ index form, after = [.failed index form (.unboundVariable name)]

/-- What the events of a run tell about it. -/
structure RunEvents (session : Session) (fuel : Nat) (source text : String) (frame : FrameId)
    (outcome : Except Failure Value) (later : Session) (events : List Event) : Prop where
  /-- They are added to the log. -/
  grown : later.machine.log.toList = session.machine.log.toList ++ events
  /-- A text that is not read leaves none, and changes nothing. -/
  unread : ∀ error, read source text = .error error →
    outcome = .error (.unread error) ∧ later = session ∧ events = []
  /-- There is a report if the run ends with a fault, and only then. -/
  reported : (∃ event ∈ events, event.isReport = true) ↔ ∃ fault, outcome = .error (.fault fault)
  /-- The report comes once and last. It tells the fault of the run and the form that failed, when those before it had
      yielded values. What comes before it are the events of these forms, one after another. -/
  identified : ∀ before index form fault after, events = before ++ .failed index form fault :: after →
    after = [] ∧ (∀ event ∈ before, event.isReport = false) ∧ outcome = .error (.fault fault) ∧
      ∃ forms moment, read source text = .ok forms ∧
        StopsAt fuel frame forms session.machine index form (.fault fault) moment ∧
        later.store = moment.store ∧
        before = eventsOf fuel frame (forms.take (index + 1)) session.store
  /-- An assignment is logged by an evaluation of the program that has come to it, and is settled at once. -/
  assigned : ∀ before name value after, events = before ++ .assign name value :: after →
    ∃ forms origin moment, read source text = .ok forms ∧ Task.Within fuel frame forms session.machine origin ∧
      origin.Records (.assign name value) moment ∧
      moment.log.toList = session.machine.log.toList ++ before ∧
      AssignmentSettled origin moment name value outcome later after

/-- What the log of a run tells about it: what its events tell, and what can be read in the entries that they are
    written as. -/
structure RunLog (session : Session) (fuel : Nat) (source text : String) (frame : FrameId)
    (outcome : Except Failure Value) (later : Session) (events : List Event) : Prop
    extends RunEvents session fuel source text frame outcome later events where
  /-- There is an entry that says that the evaluation failed if the run ends with a fault, and only then. -/
  announced : (∃ entry ∈ events.map Event.entry, entry.message = "top-level evaluation failed") ↔
    ∃ fault, outcome = .error (.fault fault)
  /-- This entry comes once and last. Its fields are the place of the form that failed, the form as it is displayed and
      the message of the failure that the run ends with. -/
  written : ∀ before entry after, events.map Event.entry = before ++ entry :: after →
    entry.message = "top-level evaluation failed" →
      after = [] ∧ (∀ other ∈ before, other.message ≠ "top-level evaluation failed") ∧
      ∃ forms index form failure moment, read source text = .ok forms ∧
        StopsAt fuel frame forms session.machine index form (.fault failure) moment ∧
        outcome = .error (.fault failure) ∧
        entry = ⟨.debug, "top-level evaluation failed", [("index", .count index), ("form", .text form.text),
          ("error", .text (Failure.fault failure).diagnostic.message)]⟩

/-- Reports alone are written as entries that say that the evaluation failed. -/
theorem Event.message_entry_eq_iff (event : Event) :
    event.entry.message = "top-level evaluation failed" ↔ event.isReport = true := by
  cases event <;> simp [entry, isReport]

/-- Reports are told from other events by the messages of their entries. -/
theorem RunEvents.runLog {session later : Session} {fuel : Nat} {source text : String} {frame : FrameId}
    {outcome : Except Failure Value} {events : List Event}
    (told : RunEvents session fuel source text frame outcome later events) :
    RunLog session fuel source text frame outcome later events := by
  refine ⟨told, ?_, ?_⟩
  · rw [← told.reported]
    simp only [List.mem_map, exists_exists_and_eq_and, Event.message_entry_eq_iff]
  · intro before entry after split announces
    obtain ⟨front, rest, whole, rfl, behind⟩ := List.map_eq_append_iff.mp split
    obtain ⟨event, tail, rfl, rfl, rfl⟩ := List.map_eq_cons_iff.mp behind
    cases event with
    | failed index form fault =>
        obtain ⟨rfl, plain, failed, forms, moment, accepted, stops, _, _⟩ :=
          told.identified front index form fault tail whole
        refine ⟨rfl, ?_, forms, index, form, fault, moment, accepted, stops, failed, rfl⟩
        intro other member announces
        obtain ⟨event, inside, rfl⟩ := List.mem_map.mp member
        rw [Event.message_entry_eq_iff, plain event inside] at announces
        cases announces
    | apply operator count => cases (Event.message_entry_eq_iff _).mp announces
    | define name value => cases (Event.message_entry_eq_iff _).mp announces
    | assign name value => cases (Event.message_entry_eq_iff _).mp announces

/-- A report behind events that are none is the last of all. -/
theorem eq_of_append_report {inner before after : List Event} {report event : Event}
    (none : ∀ event ∈ inner, event.isReport = false) (reports : event.isReport = true)
    (split : inner ++ [report] = before ++ event :: after) : inner = before ∧ report = event ∧ after = [] := by
  rcases List.append_eq_append_iff.mp split with ⟨cut, rfl, rest⟩ | ⟨cut, rfl, rest⟩
  · cases cut with
    | nil =>
        cases rest
        exact ⟨(List.append_nil _).symm, rfl, rfl⟩
    | cons first cut => simp at rest
  · cases cut with
    | nil =>
        cases rest
        exact ⟨List.append_nil _, rfl, rfl⟩
    | cons first cut =>
        cases rest
        have plain := none event (by simp)
        rw [reports] at plain
        cases plain

section Runs

variable {session later : Session} {fuel : Nat} {source text : String} {frame : FrameId} {forms : List Expr}
  {outcome : Except Failure Value}

/-- A text that is read is run as its forms. -/
theorem perform_runText (accepted : read source text = .ok forms) :
    session.perform (runText fuel source text frame) =
      match evaluateForms fuel forms frame session.machine with
      | .ok value later => (.ok value, ⟨later⟩)
      | .error stop later => (.error (.ofStop stop), ⟨later⟩) := by
  simp only [Session.perform, runText, accepted, runForms, Run.ofEval, EStateM.adaptExcept]
  cases evaluateForms fuel forms frame session.machine <;> rfl

theorem perform_runText_unread {error : ReadError} (rejected : read source text = .error error) :
    session.perform (runText fuel source text frame) = (.error (.unread error), session) := by
  simp only [Session.perform, runText, rejected]
  rfl

/-- An event that is no report is among those that evaluations have logged. -/
theorem exists_of_append_reports {inner reports before after : List Event} {event : Event}
    (only : ∀ event ∈ reports, event.isReport = true) (plain : event.isReport = false)
    (split : inner ++ reports = before ++ event :: after) : ∃ rest, inner = before ++ event :: rest := by
  have absent : event ∉ reports := by
    intro member
    rw [only event member] at plain
    cases plain
  rcases List.append_eq_append_iff.mp split with ⟨cut, _, rfl⟩ | ⟨cut, rfl, rest⟩
  · exact absurd (by simp) absent
  · cases cut with
    | nil => exact absurd (by rw [← rest.trans (List.nil_append _)]; exact List.mem_cons_self) absent
    | cons first cut =>
        cases rest
        exact ⟨cut, rfl⟩

/-- Behind an assignment that finds no binding the run has ended, and all that is left is the report. -/
theorem Recorded.assigned {inner reports : List Event} (accepted : read source text = .ok forms)
    (ran : session.perform (runText fuel source text frame) = (outcome, later))
    (recorded : Recorded (Task.Within fuel frame forms session.machine) session.machine inner)
    (only : ∀ event ∈ reports, event.isReport = true)
    (grown : later.machine.log.toList = session.machine.log.toList ++ (inner ++ reports))
    {before after : List Event} {name : String} {value : Value}
    (split : inner ++ reports = before ++ .assign name value :: after) :
    ∃ forms origin moment, read source text = .ok forms ∧ Task.Within fuel frame forms session.machine origin ∧
      origin.Records (.assign name value) moment ∧
      moment.log.toList = session.machine.log.toList ++ before ∧
      AssignmentSettled origin moment name value outcome later after := by
  obtain ⟨rest, whole⟩ := exists_of_append_reports only rfl split
  obtain ⟨origin, moment, within, records, point⟩ := recorded before _ rest whole
  refine ⟨forms, origin, moment, accepted, within, records, point, ?_⟩
  rcases within.assign_followed records with made | ⟨missing, index, form, failed⟩
  · exact .inl made
  · rw [perform_runText accepted, failed] at ran
    cases ran
    refine .inr ⟨missing, rfl, rfl, index, form, ?_⟩
    rw [split] at grown
    simpa [Machine.report, point] using grown.symm

theorem runEvents_of_recorded {inner reports : List Event} (accepted : read source text = .ok forms)
    (ran : session.perform (runText fuel source text frame) = (outcome, later))
    (recorded : Recorded (Task.Within fuel frame forms session.machine) session.machine inner)
    (grown : later.machine.log.toList = session.machine.log.toList ++ (inner ++ reports))
    (ended : (reports = [] ∧ ∀ fault, outcome ≠ .error (.fault fault)) ∨
      ∃ index form fault moment, reports = [.failed index form fault] ∧ outcome = .error (.fault fault) ∧
        StopsAt fuel frame forms session.machine index form (.fault fault) moment ∧ later.store = moment.store ∧
        inner = eventsOf fuel frame (forms.take (index + 1)) session.store) :
    RunEvents session fuel source text frame outcome later (inner ++ reports) := by
  have plain := recorded.isReport_eq_false
  have only : ∀ event ∈ reports, event.isReport = true := by
    rcases ended with ⟨rfl, _⟩ | ⟨_, _, _, _, rfl, _⟩
    · exact List.forall_mem_nil _
    · exact List.forall_mem_singleton.mpr rfl
  refine ⟨grown, ?_, ?_, ?_, ?_⟩
  · intro error rejected
    cases accepted.symm.trans rejected
  · rcases ended with ⟨rfl, fine⟩ | ⟨index, form, fault, moment, rfl, failed, _⟩
    · constructor
      · rintro ⟨event, member, reports⟩
        rw [List.append_nil] at member
        rw [plain event member] at reports
        cases reports
      · rintro ⟨fault, failed⟩
        exact absurd failed (fine fault)
    · simp [failed, Event.isReport]
  · intro before index form fault after split
    rcases ended with ⟨rfl, _⟩ | ⟨_, _, _, moment, rfl, failed, stops, stored, events⟩
    · rw [List.append_nil] at split
      have reports := plain (.failed index form fault) (by rw [split]; simp)
      cases reports
    · obtain ⟨rfl, same, rfl⟩ := eq_of_append_report plain rfl split
      cases same
      exact ⟨rfl, plain, failed, forms, moment, accepted, stops, stored, events⟩
  · intro before name value after split
    exact recorded.assigned accepted ran only grown split

theorem runEvents_unread {error : ReadError} (rejected : read source text = .error error) :
    RunEvents session fuel source text frame (.error (.unread error)) session [] := by
  refine ⟨(List.append_nil _).symm, ?_, ?_, ?_, ?_⟩
  · intro other same
    cases rejected.symm.trans same
    exact ⟨rfl, rfl, rfl⟩
  · simp
  · intro before index form fault after split
    simp at split
  · intro before name value after split
    simp at split

end Runs

/-- The log identifies the form that failed. Whatever the text and wherever it is run, a failure is reported if the
    run ends with a fault, once and at the end, with the fault, the form and its place, and so it is written; the forms
    before it yield values, and the events before the report are those of the forms up to this one, in order. A text
    that is not read leaves no event and no change. An assignment that is logged is made at once, or the run fails for want of a
    binding, and nothing is called, bound or assigned after it. -/
theorem log_identifies_failure (session : Session) (fuel : Nat) (source text : String) (frame : FrameId) :
    ∃ events, RunLog session fuel source text frame (session.perform (runText fuel source text frame)).1
      (session.perform (runText fuel source text frame)).2 events := by
  cases accepted : read source text with
  | error error =>
      rw [perform_runText_unread accepted]
      exact ⟨[], (runEvents_unread accepted).runLog⟩
  | ok forms =>
      have ran := @perform_runText session fuel source text frame forms accepted
      rw [evaluateForms] at ran
      rcases @evaluateFormsFrom_cases fuel frame forms session.machine 0 (.list []) with
        ⟨values, value, later, inTurn, ended⟩ | ⟨index, form, stop, moment, later, stops, ended, stored, logged⟩
      · obtain ⟨events, grown, recorded⟩ := Traced.inTurn (fun _ _ turn => traced_turnOf turn) inTurn
        rw [ended] at ran
        rw [← List.append_nil events] at grown
        rw [ran]
        exact ⟨events ++ [], (runEvents_of_recorded accepted ran recorded grown (.inl ⟨rfl, by simp⟩)).runLog⟩
      · obtain ⟨events, grown, recorded⟩ :=
          Traced.stopsInTurn (fun _ _ turn => traced_turnOf turn) stops.stopsInTurn
        rw [ended] at ran
        rw [grown, List.append_assoc, Nat.zero_add] at logged
        rw [ran]
        refine ⟨events ++ stop.reports index form, (runEvents_of_recorded accepted ran recorded logged ?_).runLog⟩
        cases stop with
        | outOfFuel => exact .inl ⟨rfl, by simp [Failure.ofStop]⟩
        | fault fault =>
            have same := List.append_cancel_left (grown.symm.trans stops.log_eq)
            exact .inr ⟨index, form, fault, moment, rfl, rfl, stops, stored, same⟩

/-- A program of four forms, of which the third assigns a name that is bound nowhere. The log ends with the report of
    this form, behind the events of the first three, and the report is written with the text of the form. -/
theorem log_identifies_failure_unbound :
    let form : Expr := .list [.symbol "set!", .symbol "y", .symbol "x"]
    let events : List Event :=
      [.define "x" (.primitive .car), .assign "x" (.primitive .cdr), .assign "y" (.primitive .cdr)]
    (Session.fresh.perform (runText 9 "a" "(define x car) (set! x cdr) (set! y x) (define z x)"
        Store.globalFrame)).2.machine.log.toList = events ++ [.failed 2 form (.unboundVariable "y")] ∧
      ∃ forms moment, read "a" "(define x car) (set! x cdr) (set! y x) (define z x)" = .ok forms ∧
        StopsAt 9 Store.globalFrame forms (.ofStore .fresh) 2 form (.fault (.unboundVariable "y")) moment ∧
        events = eventsOf 9 Store.globalFrame (forms.take 3) .fresh ∧
        (Event.failed 2 form (.unboundVariable "y")).entry = ⟨.debug, "top-level evaluation failed",
          [("index", .count 2), ("form", .text "(set! y x)"), ("error", .text "unbound variable 'y'")]⟩ := by
  intro form events
  have reads : read "a" "(define x car) (set! x cdr) (set! y x) (define z x)" =
      .ok [.list [.symbol "define", .symbol "x", .symbol "car"], .list [.symbol "set!", .symbol "x", .symbol "cdr"],
        .list [.symbol "set!", .symbol "y", .symbol "x"], .list [.symbol "define", .symbol "z", .symbol "x"]] := rfl
  have logged : (Session.fresh.perform (runText 9 "a" "(define x car) (set! x cdr) (set! y x) (define z x)"
      Store.globalFrame)).2.machine.log.toList = events ++ [.failed 2 form (.unboundVariable "y")] := by
    rw [perform_runText reads]
    rfl
  obtain ⟨all, log⟩ := log_identifies_failure .fresh 9 "a" "(define x car) (set! x cdr) (set! y x) (define z x)"
    Store.globalFrame
  have same : all = events ++ [.failed 2 form (.unboundVariable "y")] := log.grown.symm.trans logged
  obtain ⟨_, _, _, forms, moment, accepted, stops, _, before⟩ := log.identified events 2 form _ [] same
  exact ⟨logged, forms, moment, accepted, stops, before, rfl⟩

end LexLisp
