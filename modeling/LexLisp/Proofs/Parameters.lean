/-
Module: LexLisp.Proofs.Parameters
Purpose: No argument is lost in a call. The frame of a call binds parameters to operands one after another, so of
  two parameters with one name the first would lose its operand. That never happens: only a list of distinct symbols
  makes a procedure, so in every store that can be reached the parameters of every closure are distinct, and each
  parameter of a call has the operand at its own place.
Main exports: ParameterList, Blames, judges_parametersOf, Store.Orderly, distinctness, Client.Run.orderly,
  Store.Opened, every_argument_bound
-/
import LexLisp.Proofs.Anatomy
import LexLisp.Proofs.ClientRun
import LexLisp.Proofs.Execution
import LexLisp.Proofs.FrameNames

namespace LexLisp

/-!
### Parameter lists
-/

/-- A list of symbols, which are these names, none of them twice. -/
def ParameterList (parameters : Expr) (names : List String) : Prop :=
  parameters = .list (names.map .symbol) ∧ names.Nodup

/-- What is reported of something that is no parameter list: that it is no list, or the leftmost element that is no
    symbol or repeats a name. All before that element are symbols and distinct. -/
inductive Blames : Expr → Fault → Prop where
  | noList {parameters : Expr} (shape : ∀ items, parameters ≠ .list items) :
      Blames parameters (.type "lambda" .parameterList parameters.text)
  | noSymbol {before : List String} {item : Expr} {after : List Expr} (distinct : before.Nodup)
      (shape : ∀ name, item ≠ .symbol name) :
      Blames (.list (before.map .symbol ++ item :: after)) (.type "lambda" .aSymbol item.text)
  | repeated {before : List String} {name : String} {after : List Expr} (distinct : before.Nodup)
      (taken : name ∈ before) :
      Blames (.list (before.map .symbol ++ .symbol name :: after))
        (.type "lambda" .distinctNames ("duplicate '" ++ name ++ "'"))

/-- A symbol is a parameter unless its name is taken. -/
theorem parameterNames_symbol (taken : List String) (name : String) (items : List Expr) :
    parameterNames taken (.symbol name :: items) =
      if name ∈ taken then .error (.type "lambda" .distinctNames ("duplicate '" ++ name ++ "'"))
      else (parameterNames (name :: taken) items).map (name :: ·) := by
  rw [parameterNames]
  simp only [bindingName, Bind.bind, Except.bind]
  split
  · rfl
  · cases parameterNames (name :: taken) items <;> rfl

/-- Anything but a symbol is refused. -/
theorem parameterNames_of_ne_symbol (taken : List String) {item : Expr} (shape : ∀ name, item ≠ .symbol name)
    (items : List Expr) : parameterNames taken (item :: items) = .error (.type "lambda" .aSymbol item.text) := by
  cases item with
  | symbol name => exact absurd rfl (shape name)
  | number | list => rfl

/-- Distinct symbols are taken as they stand, if none of their names is taken. -/
theorem parameterNames_map_symbol :
    ∀ (names taken : List String), names.Nodup → (∀ name ∈ names, name ∉ taken) →
      parameterNames taken (names.map .symbol) = .ok names
  | [], _, _, _ => rfl
  | name :: names, taken, distinct, free => by
      obtain ⟨fresh, distinctRest⟩ := List.nodup_cons.mp distinct
      obtain ⟨here, others⟩ := List.forall_mem_cons.mp free
      have rest : ∀ other ∈ names, other ∉ name :: taken := by
        intro other member inside
        rcases List.mem_cons.mp inside with rfl | known
        · exact fresh member
        · exact others other member known
      rw [List.map_cons, parameterNames_symbol, if_neg here,
        parameterNames_map_symbol names (name :: taken) distinctRest rest]
      rfl

/-- A parameter list is read as its names, and anything else is blamed for what is wrong with it. -/
def Judges (parameters : Expr) : Except Fault (List String) → Prop
  | .ok names => ParameterList parameters names
  | .error fault => Blames parameters fault

/-- The judgement on a list of which some names are read already. The induction is on what is left to read, and
    carries that the names read so far are distinct. -/
theorem judges_parameterNames :
    ∀ (items : List Expr) (seen : List String), seen.Nodup →
      Judges (.list (seen.map .symbol ++ items)) ((parameterNames seen.reverse items).map (seen ++ ·))
  | [], seen, distinct => by
      simpa [Judges, ParameterList, parameterNames, Except.map] using distinct
  | item :: items, seen, distinct => by
      by_cases symbolic : ∃ name, item = .symbol name
      · obtain ⟨name, rfl⟩ := symbolic
        rw [parameterNames_symbol]
        by_cases taken : name ∈ seen
        · rw [if_pos (List.mem_reverse.mpr taken)]
          exact .repeated distinct taken
        · have longer : (seen ++ [name]).Nodup := by
            rw [List.nodup_append]
            refine ⟨distinct, by simp, ?_⟩
            intro other member new isName same
            rw [List.mem_singleton] at isName
            exact taken (isName ▸ same ▸ member)
          have judged := judges_parameterNames items (seen ++ [name]) longer
          rw [if_neg fun member => taken (List.mem_reverse.mp member)]
          cases result : parameterNames (name :: seen.reverse) items <;>
            simpa [result, Except.map] using judged
      · have shape : ∀ name, item ≠ .symbol name := fun name same => symbolic ⟨name, same⟩
        rw [parameterNames_of_ne_symbol _ shape]
        exact .noSymbol distinct shape

theorem judges_parametersOf (parameters : Expr) : Judges parameters (parametersOf parameters) := by
  cases parameters with
  | list items =>
      have judged := judges_parameterNames items [] List.nodup_nil
      cases result : parameterNames [] items <;> simpa [parametersOf, result, Except.map] using judged
  | number | symbol => exact .noList fun items same => nomatch same

/-- Accepted are just the lists of distinct symbols. -/
theorem parametersOf_eq_ok_iff {parameters : Expr} {names : List String} :
    parametersOf parameters = .ok names ↔ ParameterList parameters names := by
  constructor
  · intro accepted
    have judged := judges_parametersOf parameters
    rwa [accepted] at judged
  · rintro ⟨rfl, distinct⟩
    exact parameterNames_map_symbol names [] distinct fun _ _ => List.not_mem_nil

/-- The parameters of a procedure that is made are distinct. -/
theorem Makes.nodup {expression body : Expr} {names : List String} (makes : Makes expression names body) :
    names.Nodup := by
  cases makes with
  | lambda named shape => exact (parametersOf_eq_ok_iff.mp shape).2
  | lambdaOne named shape => simp

/-!
### Stores with distinct parameters
-/

/-- No two parameters of a closure have one name. -/
def Closure.Distinct (closure : Closure) : Prop :=
  closure.parameters.Nodup

/-- A closure that a store can hold: it is known there, and its parameters are distinct. -/
def Store.Admits (store : Store) (closure : Closure) : Prop :=
  store.Knows closure ∧ closure.Distinct

/-- Parents are earlier than their children, and all closures in frames are known and have distinct parameters. -/
structure Store.Orderly (store : Store) : Prop where
  ordered : store.ParentsEarlier
  admitted : store.Each store.Admits

namespace Store

theorem Orderly.wellFormed {store : Store} (orderly : store.Orderly) : store.WellFormed :=
  ⟨orderly.ordered, fun frame name value found =>
    (orderly.admitted frame name value found).mono fun _ admitted => admitted.1⟩

theorem Orderly.distinct {store : Store} (orderly : store.Orderly) : store.Each Closure.Distinct :=
  fun frame name value found => (orderly.admitted frame name value found).mono fun _ admitted => admitted.2

theorem WellFormed.orderly {store : Store} (wellFormed : store.WellFormed) (distinct : store.Each Closure.Distinct) :
    store.Orderly :=
  ⟨wellFormed.ordered, fun frame name value found closure within =>
    ⟨wellFormed.known frame name value found closure within, distinct frame name value found closure within⟩⟩

end Store

/-- Anything may be evaluated in a frame that exists, and the parameters of every closure must be distinct. -/
def distinctness : Discipline where
  start := 0
  watches _ := True
  admits store _ frame := frame < store.size
  trusts := Store.Admits
  misses _ _ := True

/-- Safe for this discipline are just the orderly stores. -/
theorem distinctness_safe_iff {store : Store} : distinctness.Safe store ↔ store.Orderly := by
  constructor
  · intro safe
    exact ⟨safe.ordered, fun frame name value found => safe.trusted frame name value trivial found⟩
  · intro orderly
    exact ⟨orderly.ordered, Nat.zero_le _, fun _ _ _ _ => trivial,
      fun frame name value _ found => orderly.admitted frame name value found, trivial⟩

/-- The discipline is lawful: the parameters of a new procedure are distinct, since a list of them that repeats a name
    is refused. -/
theorem distinctness_lawful : distinctness.Lawful where
  watches_new _ _ := trivial
  admits_made made := ⟨made, trivial⟩
  trusts_home admitted := ⟨admitted.1.1, trivial⟩
  admits_extends _ grown made := Nat.lt_of_lt_of_le made grown.size_le
  trusts_extends _ grown admitted := ⟨admitted.1.extends grown, admitted.2⟩
  admits_part _ made := made
  trusts_made _ makes made := ⟨⟨made, Nat.lt_succ_self _⟩, makes.nodup⟩
  admits_body _ _ _ := by simp [distinctness]
  misses_variable _ _ _ _ := trivial
  misses_assignment _ _ _ _ := trivial

/-!
### Whole runs of a caller
-/

namespace Client

/-- All closures that a client can get hold of have distinct parameters. -/
structure Distinct (client : Client) : Prop where
  stored : client.store.Each Closure.Distinct
  held : ∀ value ∈ client.values, value.Each Closure.Distinct

theorem Distinct.each {client : Client} (distinct : client.Distinct) {value : Value} (holds : client.Holds value) :
    value.Each Closure.Distinct := by
  intro closure within
  obtain ⟨source, member, inside⟩ := holds closure within
  exact distinct.held source member closure inside

theorem Distinct.withStore {client : Client} (distinct : client.Distinct) {store : Store}
    (stored : store.Each Closure.Distinct) : (client.withStore store).Distinct :=
  ⟨stored, distinct.held⟩

theorem Distinct.addValue {client : Client} (distinct : client.Distinct) {value : Value}
    (known : value.Each Closure.Distinct) : Distinct { client with values := value :: client.values } :=
  ⟨distinct.stored, List.forall_mem_cons.mpr ⟨known, distinct.held⟩⟩

theorem Distinct.finish {client : Client} (distinct : client.Distinct) {ending : Ending Value}
    (allows : distinctness.Allows client.store (fun value store => value.Each (distinctness.trusts store)) ending) :
    (client.finish ending).Distinct := by
  have stored := (distinctness_safe_iff.mp allows.keeps.safe).distinct
  cases ending with
  | ok value machine =>
      exact ⟨stored, List.forall_mem_cons.mpr ⟨allows.2.mono fun _ admitted => admitted.2, distinct.held⟩⟩
  | error stop machine => exact ⟨stored, distinct.held⟩

theorem Distinct.run {client : Client} (distinct : client.Distinct) (safe : distinctness.Safe client.store)
    (fuel : Nat) (source text : String) {frame : FrameId} (made : frame < client.store.size) :
    (client.finish (runText fuel source text frame client.machine)).Distinct := by
  rcases client.finish_runText_cases fuel source text frame with same | ⟨forms, same⟩
  · rw [same]
    exact distinct
  · rw [same]
    exact distinct.finish (Discipline.evaluateFormsFrom_allows distinctness_lawful fuel frame forms 0 (.list [])
      client.machine safe (by simp) fun _ _ => made)

/-- What one request does, whether it succeeds or fails. Only an evaluation makes closures. -/
theorem Distinct.perform {client : Client} (distinct : client.Distinct) (sound : client.Sound) {request : Request}
    (allowed : client.Allows request) : (client.perform request).Distinct := by
  have safe : distinctness.Safe client.store :=
    distinctness_safe_iff.mpr (sound.wellFormed.orderly distinct.stored)
  have known : ∀ value ∈ request.values, value.Each Closure.Distinct :=
    fun value member => distinct.each (allowed.2 value member)
  have made : ∀ frame ∈ request.frames, frame < client.store.size :=
    fun frame member => sound.frames_made frame (allowed.1 frame member)
  have admitted : ∀ value ∈ request.values, value.Each client.store.Admits :=
    fun value member closure within =>
      ⟨sound.knowsAll (allowed.2 value member) closure within, known value member closure within⟩
  cases request with
  | extend parent names operands callee =>
      by_cases counts : names.length = operands.length
      · simp only [Client.perform, Store.extend, checkCounts, counts, if_true]
        exact ⟨distinct.stored.enter parent names known, distinct.held⟩
      · simp only [Client.perform, Store.extend, checkCounts, counts, if_false]
        exact distinct
  | define frame name value =>
      exact distinct.withStore (distinct.stored.define frame name (known value List.mem_cons_self))
  | assign frame name value =>
      simp only [Client.perform, Store.assign?]
      cases client.store.nearest? frame name with
      | none => exact distinct
      | some link => exact distinct.withStore (distinct.stored.define link name (known value List.mem_cons_self))
  | ensurePrimitives frame => exact distinct.withStore (distinct.stored.ensurePrimitives frame)
  | evaluate fuel expression frame =>
      exact distinct.finish (Discipline.evaluate_respects distinctness_lawful fuel expression frame client.machine
        safe (made frame List.mem_cons_self))
  | apply fuel callee operands operator =>
      obtain ⟨calleeAdmitted, operandsAdmitted⟩ := List.forall_mem_cons.mp admitted
      exact distinct.finish (Discipline.applyWith_allows distinctness_lawful
        (Discipline.evaluate_respects distinctness_lawful fuel) operator safe calleeAdmitted operandsAdmitted)
  | run fuel source text frame => exact distinct.run safe fuel source text (made frame List.mem_cons_self)
  | lookup frame name =>
      simp only [Client.perform]
      cases found : client.store.lookup? frame name with
      | none => exact distinct
      | some value => exact distinct.addValue (distinct.stored.lookup? found)
  | parent frame =>
      simp only [Client.perform]
      cases client.store.parent? frame with
      | none => exact distinct
      | some parent => exact ⟨distinct.stored, distinct.held⟩
  | home closure => exact ⟨distinct.stored, distinct.held⟩

/-- Along a run all procedures that a client holds have distinct parameters. -/
theorem Run.distinct {start client : Client} (initial : start.Initial) (run : start.Run client) :
    client.Distinct := by
  induction run with
  | here =>
      cases initial with
      | fresh => exact ⟨Store.each_fresh, fun _ member => nomatch member⟩
      | withBindings entries data => exact ⟨Store.each_withBindings data, fun _ member => nomatch member⟩
  | step run allowed inductionHypothesis => exact inductionHypothesis.perform (run.sound initial) allowed

/-- Along a run the store is orderly, and what the client holds is admitted. -/
theorem Run.orderly {start client : Client} (initial : start.Initial) (run : start.Run client) :
    client.store.Orderly ∧ ∀ value ∈ client.values, value.Each client.store.Admits := by
  have sound := run.sound initial
  have distinct := run.distinct initial
  refine ⟨sound.wellFormed.orderly distinct.stored, ?_⟩
  intro value member closure within
  exact ⟨sound.values_known value member closure within, distinct.held value member closure within⟩

end Client

/-- What an evaluation leaves, wherever it is cut off. -/
theorem evaluateUntil_orderly (cut : Cut) (fuel : Nat) (expression : Expr) {frame : FrameId} {machine : Machine}
    (orderly : machine.store.Orderly) (made : frame < machine.store.size) :
    let ending : Ending Value := evaluateUntil cut fuel expression frame machine
    ending.store.Orderly ∧ ∀ value, ending.outcome = .ok value → value.Each ending.store.Admits := by
  intro ending
  have allows := Discipline.evaluateUntil_respects distinctness_lawful cut fuel expression frame machine
    (distinctness_safe_iff.mpr orderly) made
  exact ⟨distinctness_safe_iff.mp allows.keeps.safe, fun value yielded => allows.good_of_ok yielded⟩

/-!
### The frame of a call
-/

namespace Bindings

/-- A name that is not among the entries keeps its value. -/
theorem get?_insertAll_of_not_mem {name : String} :
    ∀ (entries : List (String × Value)) (bindings : Bindings), name ∉ entries.map Prod.fst →
      (bindings.insertAll entries).get? name = bindings.get? name
  | [], _, _ => rfl
  | (first, value) :: rest, bindings, absent => by
      rw [List.map_cons, List.mem_cons, not_or] at absent
      have later := get?_insertAll_of_not_mem rest (bindings.insert first value) absent.2
      rw [get?_insert, if_neg absent.1] at later
      exact later

/-- Of distinct names each is bound to the value at its own place. -/
theorem get?_insertAll_zip {name : String} {value : Value} :
    ∀ (names : List String) (values : List Value) (bindings : Bindings) (index : Nat), names.Nodup →
      names[index]? = some name → values[index]? = some value →
        (bindings.insertAll (names.zip values)).get? name = some value
  | [], _, _, _, _, atName, _ => by simp at atName
  | _ :: _, [], _, _, _, _, atValue => by simp at atValue
  | first :: names, operand :: values, bindings, 0, distinct, atName, atValue => by
      obtain ⟨fresh, _⟩ := List.nodup_cons.mp distinct
      obtain rfl : first = name := by simpa using atName
      obtain rfl : operand = value := by simpa using atValue
      have later := get?_insertAll_of_not_mem (names.zip values) (bindings.insert first operand) fun member => by
        obtain ⟨⟨_, _⟩, inside, rfl⟩ := List.mem_map.mp member
        exact fresh (List.of_mem_zip inside).1
      rw [get?_insert, if_pos rfl] at later
      exact later
  | first :: names, operand :: values, bindings, index + 1, distinct, atName, atValue => by
      obtain ⟨_, distinctRest⟩ := List.nodup_cons.mp distinct
      exact get?_insertAll_zip names values (bindings.insert first operand) index distinctRest atName atValue

end Bindings

namespace Store

/-- What a frame itself binds is found there first. -/
theorem lookup?_of_local? {store : Store} {frame : FrameId} {name : String} {value : Value}
    (found : store.local? frame name = some value) : store.lookup? frame name = some value := by
  have made := lt_size_of_local? found
  cases link : store.parent? frame with
  | none => rw [lookup?, chain_of_root made link, List.findSome?_cons, found]
  | some parent => rw [lookup?, chain, chainWithin_of_parent link, List.findSome?_cons, found]

/-- What a call of a closure does to a store before the body is evaluated: one frame more, inside the frame that the
    closure captured, which binds the parameters and nothing else, each to the operand at its own place. -/
structure Opened (before after : Store) (closure : Closure) (operands : List Value) : Prop where
  size_eq : after.size = before.size + 1
  unchanged : ∀ frame, frame < before.size → after.frame? frame = before.frame? frame
  parent : after.parent? before.size = some closure.home
  names : ∀ name, after.bindsLocally before.size name = true ↔ name ∈ closure.parameters
  arguments : ∀ (index : Nat) name value, closure.parameters[index]? = some name →
    operands[index]? = some value → after.lookup? before.size name = some value

/-- The frame of a call binds each parameter to its operand, and nothing else. -/
theorem opened_enter {store : Store} {closure : Closure} {operands : List Value} (distinct : closure.Distinct)
    (counts : closure.parameters.length = operands.length) :
    store.Opened (store.enter closure.home closure.parameters operands).2 closure operands where
  size_eq := size_enter ..
  unchanged _ made := frame?_enter_of_lt made ..
  parent := by rw [parent?_enter, if_pos rfl]
  names name := ⟨mem_of_bindsLocally_enter, bindsLocally_enter counts⟩
  arguments index name value atName atValue := by
    apply lookup?_of_local?
    rw [local?, frame?_enter, if_pos rfl]
    exact Bindings.get?_insertAll_zip _ _ _ index distinct atName atValue

/-- A call that is made keeps a store orderly. -/
theorem Orderly.enter {store : Store} (orderly : store.Orderly) {closure : Closure} (admitted : store.Admits closure)
    {operands : List Value} (each : ∀ operand ∈ operands, operand.Each store.Admits) :
    (store.enter closure.home closure.parameters operands).2.Orderly :=
  distinctness_safe_iff.mp (distinctness_lawful.keeps_enter (distinctness_safe_iff.mpr orderly) admitted.1.1 trivial
    closure.parameters each trivial).safe

end Store

/-!
### Procedures and calls
-/

/-- A procedure is made, or its parameters are refused. -/
theorem evaluate_lambda (fuel : Nat) (parameters body : Expr) (frame : FrameId) (machine : Machine) :
    evaluate (fuel + 1) (.list [.symbol "lambda", parameters, body]) frame machine =
      match parametersOf parameters with
      | .ok names => .ok (.closure ⟨machine.store.closures, names, body, frame⟩)
          { machine with store := { machine.store with closures := machine.store.closures + 1 } }
      | .error fault => .error (.fault fault) machine := by
  have keyword : Keyword.ofHead? (.symbol "lambda") = some .lambda := by decide
  simp only [evaluate, evaluateWith, keyword, evaluateForm]
  cases parametersOf parameters with
  | ok names => rfl
  | error fault => rfl

/-- A list of distinct symbols is accepted, and the procedure captures the frame. -/
theorem evaluate_lambda_of_parameterList {parameters : Expr} {names : List String}
    (accepted : ParameterList parameters names) (fuel : Nat) (body : Expr) (frame : FrameId) (machine : Machine) :
    evaluate (fuel + 1) (.list [.symbol "lambda", parameters, body]) frame machine =
      .ok (.closure ⟨machine.store.closures, names, body, frame⟩)
        { machine with store := { machine.store with closures := machine.store.closures + 1 } } := by
  rw [evaluate_lambda, parametersOf_eq_ok_iff.mpr accepted]

/-- Anything else is refused, with blame on the leftmost offender. -/
theorem evaluate_lambda_blames {parameters : Expr} (rejected : ∀ names, ¬ ParameterList parameters names)
    (fuel : Nat) (body : Expr) (frame : FrameId) (machine : Machine) :
    ∃ fault, evaluate (fuel + 1) (.list [.symbol "lambda", parameters, body]) frame machine =
      .error (.fault fault) machine ∧ Blames parameters fault := by
  rw [evaluate_lambda]
  have judged := judges_parametersOf parameters
  cases result : parametersOf parameters with
  | ok names => exact absurd (parametersOf_eq_ok_iff.mp result) (rejected names)
  | error fault =>
      rw [result] at judged
      exact ⟨fault, rfl, judged⟩

/-- A call with another number of operands is refused before a frame is made. -/
theorem apply_of_counts_ne {fuel : Nat} {machine : Machine} {closure : Closure} {operands : List Value}
    (operator : String) (counts : closure.parameters.length ≠ operands.length) :
    apply fuel (.closure closure) operands operator machine =
      .error (.fault (.arity operator (.exactly closure.parameters.length) operands.length))
        { machine with log := machine.log.push (.apply operator operands.length) } := by
  rw [apply, applyWith, Eval.bind_ok (Eval.record_apply _ _)]
  exact Eval.bind_error (Eval.enter_of_counts_ne counts)

/-- A call with one operand for each parameter leaves more frames than there were, whatever becomes of its body. -/
theorem size_lt_of_apply (fuel : Nat) {machine : Machine} {closure : Closure} {operands : List Value}
    (operator : String) (orderly : machine.store.Orderly) (admitted : machine.store.Admits closure)
    (each : ∀ operand ∈ operands, operand.Each machine.store.Admits)
    (counts : closure.parameters.length = operands.length) :
    machine.store.size < (Ending.store (apply fuel (.closure closure) operands operator machine)).size := by
  rw [apply, applyWith_closure counts]
  have entered := (orderly.enter admitted each).wellFormed
  have made : machine.store.size < (machine.store.enter closure.home closure.parameters operands).2.size := by
    rw [Store.size_enter]
    exact Nat.lt_succ_self _
  have sound := @evaluate_sound fuel closure.body machine.store.size
    ⟨_, machine.log.push (.apply operator operands.length)⟩ entered made
  exact Nat.lt_of_lt_of_le made sound.grown.size_le

/-- A call fails for a number of operands, with the store as it was, just where its own count is wrong: any other call
    has made a frame by then. -/
theorem apply_arity_iff (fuel : Nat) {machine : Machine} {closure : Closure} {operands : List Value}
    (operator : String) (orderly : machine.store.Orderly) (admitted : machine.store.Admits closure)
    (each : ∀ operand ∈ operands, operand.Each machine.store.Admits) :
    let ending : Ending Value := apply fuel (.closure closure) operands operator machine
    (∃ form expected given, ending.outcome = .error (.fault (.arity form expected given)) ∧
      ending.store = machine.store) ↔ closure.parameters.length ≠ operands.length := by
  intro ending
  constructor
  · rintro ⟨form, expected, given, _, unchanged⟩ counts
    have grown := size_lt_of_apply fuel operator orderly admitted each counts
    exact absurd (congrArg Store.size unchanged) (Nat.ne_of_gt grown)
  · intro counts
    have failed : ending = _ := apply_of_counts_ne operator counts
    rw [failed]
    exact ⟨_, _, _, rfl, rfl⟩

/-- No argument is lost in a call. In every state that a caller can reach, and wherever an evaluation is cut off, all
    closures have distinct parameters. A procedure form takes a list of distinct symbols, in their order, and reports
    the leftmost element of anything else before it does anything. A call of a closure fails for its operand count
    and leaves the store as it is exactly where the counts differ; otherwise it evaluates the body in a new frame
    inside the captured one, which binds exactly the parameters, each to the operand at its own place. -/
theorem every_argument_bound :
    (∀ start client : Client, start.Initial → start.Run client →
      client.store.Orderly ∧ ∀ value ∈ client.values, value.Each client.store.Admits) ∧
    (∀ cut fuel expression frame (machine : Machine), machine.store.Orderly → frame < machine.store.size →
      let ending : Ending Value := evaluateUntil cut fuel expression frame machine
      ending.store.Orderly ∧ ∀ value, ending.outcome = .ok value → value.Each ending.store.Admits) ∧
    (∀ fuel parameters body frame (machine : Machine),
      let ending : Ending Value := evaluate (fuel + 1) (.list [.symbol "lambda", parameters, body]) frame machine
      (∀ names, ParameterList parameters names →
        ending = .ok (.closure ⟨machine.store.closures, names, body, frame⟩)
          { machine with store := { machine.store with closures := machine.store.closures + 1 } }) ∧
      ((∀ names, ¬ ParameterList parameters names) →
        ∃ fault, ending = .error (.fault fault) machine ∧ Blames parameters fault)) ∧
    ∀ fuel closure operands operator (machine : Machine), machine.store.Orderly → machine.store.Admits closure →
      (∀ operand ∈ operands, operand.Each machine.store.Admits) →
      let ending : Ending Value := apply fuel (.closure closure) operands operator machine
      ((∃ form expected given, ending.outcome = .error (.fault (.arity form expected given)) ∧
          ending.store = machine.store) ↔ closure.parameters.length ≠ operands.length) ∧
      (closure.parameters.length = operands.length →
        ∃ entered : Machine, machine.store.Opened entered.store closure operands ∧ entered.store.Orderly ∧
          ending = evaluate fuel closure.body machine.store.size entered) := by
  refine ⟨?_, ?_, ?_, ?_⟩
  · intro start client initial run
    exact run.orderly initial
  · intro cut fuel expression frame machine orderly made
    exact evaluateUntil_orderly cut fuel expression orderly made
  · intro fuel parameters body frame machine
    exact ⟨fun names accepted => evaluate_lambda_of_parameterList accepted fuel body frame machine,
      fun rejected => evaluate_lambda_blames rejected fuel body frame machine⟩
  · intro fuel closure operands operator machine orderly admitted each
    refine ⟨apply_arity_iff fuel operator orderly admitted each, ?_⟩
    intro counts
    exact ⟨_, Store.opened_enter admitted.2 counts, orderly.enter admitted each, applyWith_closure counts⟩

/-- A procedure of two parameters is made and called; one with a repeated parameter is not made. -/
theorem every_argument_bound_pair :
    let start : Client := ⟨.ofStore .fresh, [Store.globalFrame], []⟩
    let pair : Expr := .list [.symbol "x", .symbol "y"]
    let twice : Expr := .list [.symbol "x", .symbol "x"]
    let client := start.perform (.evaluate 1 (.list [.symbol "lambda", pair, .symbol "x"]) Store.globalFrame)
    let closure : Closure := ⟨0, ["x", "y"], .symbol "x", Store.globalFrame⟩
    let operands : List Value := [.boolean true, .boolean false]
    start.Run client ∧ client.store.Orderly ∧ client.store.Admits closure ∧
      (∃ entered : Machine, client.store.Opened entered.store closure operands ∧
        apply 1 (.closure closure) operands "f" client.machine = evaluate 1 (.symbol "x") 1 entered) ∧
      ∃ fault, evaluate 1 (.list [.symbol "lambda", twice, .symbol "x"]) Store.globalFrame client.machine =
        .error (.fault fault) client.machine ∧ Blames twice fault := by
  intro start pair twice client closure operands
  obtain ⟨reached, _, judged, called⟩ := every_argument_bound
  have run : start.Run client := by
    refine .step .here ⟨?_, fun value member => nomatch member⟩
    exact fun frame member => member
  obtain ⟨orderly, admitted⟩ := reached start client .fresh run
  have closureAdmitted : client.store.Admits closure :=
    (Value.each_closure closure).mp (admitted (.closure closure) List.mem_cons_self)
  have data : ∀ operand ∈ operands, operand.Each client.store.Admits := by simp [operands]
  refine ⟨run, orderly, closureAdmitted, ?_, ?_⟩
  · obtain ⟨entered, opened, _, same⟩ :=
      (called 1 closure operands "f" client.machine orderly closureAdmitted data).2 rfl
    exact ⟨entered, opened, same⟩
  · refine (judged 0 twice (.symbol "x") Store.globalFrame client.machine).2 ?_
    intro names accepted
    have rejected : parametersOf twice = .error (.type "lambda" .distinctNames "duplicate 'x'") := rfl
    have read := parametersOf_eq_ok_iff.mpr accepted
    rw [rejected] at read
    cases read

end LexLisp
