/-
Module: LexLisp.Proofs.Discipline
Purpose: One induction over evaluation for every invariant of stores. A discipline says what may be evaluated
  in which frame, which closures may be around, which frames may be touched, and what holds of the store as a
  whole. Its laws are about single steps: a definition, an assignment, making a closure, entering a call,
  missing a name. From the laws it follows that a whole evaluation keeps to the discipline, with a value and
  with every stop.
Main exports: Discipline, Discipline.Lawful, Discipline.Keeps, Discipline.evaluateAs_respects,
  Discipline.evaluate_respects
-/
import LexLisp.Proofs.Chain
import LexLisp.Proofs.Closures
import LexLisp.Proofs.Congruence
import LexLisp.Program

namespace LexLisp

/-- The forms of a program in order, given to any evaluator. -/
def evaluateFormsBy (evaluator : Evaluator) (frame : FrameId) : Nat → Value → List Expr → Eval Value
  | _, last, [] => pure last
  | index, _, form :: forms => do
    let value ← (evaluator form frame).onFault fun fault => .failed index form fault
    evaluateFormsBy evaluator frame (index + 1) value forms

/-- Forms given to `evaluate` are the forms of a program. -/
theorem evaluateFormsBy_evaluate (fuel : Nat) (frame : FrameId) (index : Nat) (last : Value)
    (forms : List Expr) :
    evaluateFormsBy (evaluate fuel) frame index last forms =
      evaluateFormsFrom fuel frame index last forms := by
  induction forms generalizing index last with
  | nil => rfl
  | cons form forms inductionHypothesis =>
      simp only [evaluateFormsBy, evaluateFormsFrom, inductionHypothesis]

/-!
### Disciplines
-/

/-- The operands of a special form that it may evaluate in its own frame. -/
inductive FormPart : Keyword → List Expr → Expr → Prop where
  | defined {name : String} {body : Expr} : FormPart .define [.symbol name, body] body
  | assigned {name : String} {body : Expr} : FormPart .assign [.symbol name, body] body
  | sequenced {operands : List Expr} {part : Expr} (member : part ∈ operands) :
      FormPart .sequence operands part
  | condition {condition consequent alternative : Expr} :
      FormPart .conditional [condition, consequent, alternative] condition
  | consequent {condition consequent alternative : Expr} :
      FormPart .conditional [condition, consequent, alternative] consequent
  | alternative {condition consequent alternative : Expr} :
      FormPart .conditional [condition, consequent, alternative] alternative

/-- The expressions that an expression may evaluate in its own frame. -/
inductive Part : Expr → Expr → Prop where
  | form {head part : Expr} {operands : List Expr} {keyword : Keyword}
      (named : Keyword.ofHead? head = some keyword) (inForm : FormPart keyword operands part) :
      Part (.list (head :: operands)) part
  | operator {head : Expr} {operands : List Expr} (plain : Keyword.ofHead? head = none) :
      Part (.list (head :: operands)) head
  | operand {head operand : Expr} {operands : List Expr} (plain : Keyword.ofHead? head = none)
      (member : operand ∈ operands) : Part (.list (head :: operands)) operand

/-- A form with this keyword evaluates operands in its own frame: it neither quotes them nor makes a procedure
    of them. -/
def Keyword.Evaluates (keyword : Keyword) : Prop :=
  keyword ≠ .quote ∧ keyword ≠ .lambda ∧ keyword ≠ .lambdaOne

/-- A part that a form evaluates is one of its operands. -/
theorem FormPart.mem_operands {keyword : Keyword} {operands : List Expr} {part : Expr}
    (inForm : FormPart keyword operands part) : part ∈ operands ∧ keyword.Evaluates := by
  cases inForm with
  | sequenced member => exact ⟨member, by simp [Keyword.Evaluates]⟩
  | defined | assigned | condition | consequent | alternative => simp [Keyword.Evaluates]

/-- What an expression evaluates in its own frame is an element of it. -/
theorem Part.element {whole part : Expr} (inside : Part whole part) :
    ∃ head operands, whole = .list (head :: operands) ∧ part ∈ head :: operands ∧
      ∀ keyword ∈ Keyword.ofHead? head, keyword.Evaluates := by
  cases inside with
  | @form head _ operands keyword named inForm =>
      obtain ⟨member, evaluates⟩ := inForm.mem_operands
      refine ⟨head, operands, rfl, List.mem_cons_of_mem _ member, ?_⟩
      intro other same
      rw [named] at same
      exact Option.some.inj same ▸ evaluates
  | @operator head operands plain =>
      exact ⟨part, operands, rfl, List.mem_cons_self, by simp [plain]⟩
  | @operand head _ operands plain member =>
      exact ⟨head, operands, rfl, List.mem_cons_of_mem _ member, by simp [plain]⟩

/-- An expression makes a procedure with these parameters and this body. -/
inductive Makes : Expr → List String → Expr → Prop where
  | lambda {head parameters body : Expr} {names : List String}
      (named : Keyword.ofHead? head = some .lambda) (shape : parametersOf parameters = .ok names) :
      Makes (.list [head, parameters, body]) names body
  | lambdaOne {head parameter body : Expr} {name : String}
      (named : Keyword.ofHead? head = some .lambdaOne)
      (shape : bindingName .lambdaOne parameter = .ok name) :
      Makes (.list [head, parameter, body]) [name] body

/-- What an evaluation keeps to. -/
structure Discipline where
  /-- Every frame from this number on may be touched: it is made by the evaluation. -/
  start : Nat
  /-- The frames that may be touched. -/
  watches : FrameId → Prop
  /-- What may be evaluated in a frame. -/
  admits : Store → Expr → FrameId → Prop
  /-- Which closures may be bound in a watched frame, or yielded. -/
  trusts : Store → Closure → Prop
  /-- Which names a search may miss. -/
  misses : Store → String → Prop
  /-- What else holds of the store as a whole. -/
  holds : Store → Prop := fun _ => True

namespace Discipline

/-- A store that keeps to a discipline. -/
structure Safe (discipline : Discipline) (store : Store) : Prop where
  ordered : store.ParentsEarlier
  started : discipline.start ≤ store.size
  outwards : ∀ frame parent, discipline.watches frame → store.parent? frame = some parent →
    discipline.watches parent
  trusted : ∀ frame name value, discipline.watches frame → store.local? frame name = some value →
    value.Each (discipline.trusts store)
  whole : discipline.holds store := by trivial

/-- The laws of a discipline, one for each thing that a step of evaluation can do. -/
structure Lawful (discipline : Discipline) : Prop where
  watches_new : ∀ frame, discipline.start ≤ frame → discipline.watches frame
  admits_made : ∀ {store expression frame}, discipline.admits store expression frame →
    frame < store.size ∧ discipline.watches frame
  trusts_home : ∀ {store closure}, discipline.trusts store closure →
    closure.home < store.size ∧ discipline.watches closure.home
  admits_extends : ∀ {before after expression frame}, before.ParentsEarlier → before.Extends after →
    discipline.admits before expression frame → discipline.admits after expression frame
  trusts_extends : ∀ {before after closure}, before.ParentsEarlier → before.Extends after →
    discipline.trusts before closure → discipline.trusts after closure
  admits_part : ∀ {store whole part frame}, Part whole part →
    discipline.admits store whole frame → discipline.admits store part frame
  trusts_made : ∀ {store : Store} {expression names body frame}, discipline.Safe store →
    Makes expression names body → discipline.admits store expression frame →
      discipline.trusts { store with closures := store.closures + 1 }
        ⟨store.closures, names, body, frame⟩
  admits_body : ∀ {store : Store} {closure : Closure} {values : List Value}, discipline.Safe store →
    discipline.trusts store closure → closure.parameters.length = values.length →
      discipline.admits (store.enter closure.home closure.parameters values).2 closure.body store.size
  misses_variable : ∀ {store name frame}, discipline.Safe store →
    discipline.admits store (.symbol name) frame → truth? name = none → ¬ store.Binds frame name →
      discipline.misses store name
  misses_assignment : ∀ {store head name body frame}, discipline.Safe store →
    Keyword.ofHead? head = some .assign →
      discipline.admits store (.list [head, .symbol name, body]) frame →
        ¬ store.Binds frame name → discipline.misses store name
  holds_define : ∀ {store head name body frame value}, discipline.Safe store →
    Keyword.ofHead? head = some .define →
      discipline.admits store (.list [head, .symbol name, body]) frame →
        value.Each (discipline.trusts store) →
          discipline.holds (store.define frame name value) := by intros; trivial
  holds_assign : ∀ {store head name body frame link value}, discipline.Safe store →
    Keyword.ofHead? head = some .assign →
      discipline.admits store (.list [head, .symbol name, body]) frame →
        store.nearest? frame name = some link → value.Each (discipline.trusts store) →
          discipline.holds (store.define link name value) := by intros; trivial
  holds_enter : ∀ {store : Store} {closure : Closure} {values : List Value}, discipline.Safe store →
    discipline.trusts store closure → closure.parameters.length = values.length →
      (∀ value ∈ values, value.Each (discipline.trusts store)) →
        discipline.holds (store.enter closure.home closure.parameters values).2 := by intros; trivial
  holds_close : ∀ {store : Store} {expression names body frame}, discipline.Safe store →
    Makes expression names body → discipline.admits store expression frame →
      discipline.holds { store with closures := store.closures + 1 } := by intros; trivial

/-- What a discipline promises of the store after a step. -/
structure Keeps (discipline : Discipline) (before after : Store) : Prop where
  grown : before.Extends after
  safe : discipline.Safe after
  untouched : ∀ frame, frame < before.size → ¬ discipline.watches frame →
    after.frame? frame = before.frame? frame

/-- What a discipline promises of an ending: the store is safe, and an unbound variable was one that may
    be missed. -/
def Allows {α : Type} (discipline : Discipline) (before : Store) (good : α → Store → Prop) :
    Ending α → Prop :=
  Ending.Meets
    (fun value machine => discipline.Keeps before machine.store ∧ good value machine.store)
    (fun stop machine => discipline.Keeps before machine.store ∧
      ∀ name, stop = .fault (.unboundVariable name) → discipline.misses machine.store name)

variable {discipline : Discipline} {α β : Type}

theorem Keeps.refl {store : Store} (safe : discipline.Safe store) : discipline.Keeps store store :=
  ⟨.refl store, safe, fun _ _ _ => rfl⟩

/-- What two steps keep, both keep. -/
theorem Keeps.trans {first second third : Store} (early : discipline.Keeps first second)
    (late : discipline.Keeps second third) : discipline.Keeps first third where
  grown := early.grown.trans late.grown
  safe := late.safe
  untouched frame made unwatched := by
    rw [late.untouched frame (Nat.lt_of_lt_of_le made early.grown.size_le) unwatched,
      early.untouched frame made unwatched]

section Endings

variable {before : Store} {good : α → Store → Prop} {ending : Ending α}

theorem Allows.keeps (allows : discipline.Allows before good ending) :
    discipline.Keeps before ending.store := by
  cases ending with
  | ok value machine => exact allows.1
  | error stop machine => exact allows.1

/-- What is allowed to end with a value ends with a good one. -/
theorem Allows.good_of_ok (allows : discipline.Allows before good ending) {value : α}
    (yielded : ending.outcome = .ok value) : good value ending.store := by
  cases ending with
  | ok other machine =>
      cases yielded
      exact allows.2
  | error stop machine => cases yielded

/-- What is allowed to miss a name misses one that it may. -/
theorem Allows.misses_of_error (allows : discipline.Allows before good ending) {name : String}
    (stopped : ending.outcome = .error (.fault (.unboundVariable name))) :
    discipline.misses ending.store name := by
  cases ending with
  | ok value machine => cases stopped
  | error stop machine => exact allows.2 name (Except.error.inj stopped)

end Endings

/-- What is allowed from a later store is allowed from the start, if the discipline was kept up to there. -/
theorem Allows.after {first second : Store} {good : α → Store → Prop} {ending : Ending α}
    (early : discipline.Keeps first second) (late : discipline.Allows second good ending) :
    discipline.Allows first good ending := by
  apply Ending.Meets.weaken late
  · intro value machine known
    exact ⟨early.trans known.1, known.2⟩
  · intro stop machine known
    exact ⟨early.trans known.1, known.2⟩

/-- Two actions in sequence. -/
theorem Allows.bind {before : Store} {middle : β → Store → Prop} {good : α → Store → Prop}
    {action : Eval β} {next : β → Eval α} {machine : Machine}
    (first : discipline.Allows before middle (action machine))
    (second : ∀ value later, discipline.Keeps before later.store → middle value later.store →
      discipline.Allows later.store good (next value later)) :
    discipline.Allows before good ((action >>= next) machine) := by
  apply Ending.Meets.bind first
  intro value later known
  exact (second value later known.1 known.2).after known.1

/-- To yield a good value on a safe store is allowed. -/
theorem allows_ok {good : α → Store → Prop} {value : α} {machine : Machine}
    (safe : discipline.Safe machine.store) (known : good value machine.store) :
    discipline.Allows machine.store good (.ok value machine) :=
  ⟨.refl safe, known⟩

/-- To fail on a safe store is allowed, for want of a name only if the name may be missed. -/
theorem allows_fault {good : α → Store → Prop} {fault : Fault} {machine : Machine}
    (safe : discipline.Safe machine.store)
    (missed : ∀ name, fault = .unboundVariable name → discipline.misses machine.store name) :
    discipline.Allows machine.store good (.error (.fault fault) machine : Ending α) := by
  refine ⟨.refl safe, ?_⟩
  intro name same
  cases same
  exact missed name rfl

/-- An event in the log leaves the store alone. -/
theorem Allows.record {good : α → Store → Prop} {event : Event} {next : Unit → Eval α}
    {machine : Machine}
    (rest : ∀ logged : Machine, logged.store = machine.store →
      discipline.Allows logged.store good (next () logged)) :
    discipline.Allows machine.store good ((Eval.record event >>= next) machine) :=
  rest { machine with log := machine.log.push event } rfl

theorem allows_ofExcept {good : α → Store → Prop} {result : Except Fault α} {machine : Machine}
    (safe : discipline.Safe machine.store)
    (known : ∀ value, result = .ok value → good value machine.store)
    (bound : ∀ name, result ≠ .error (.unboundVariable name)) :
    discipline.Allows machine.store good (Eval.ofExcept result machine) := by
  cases result with
  | ok value => exact allows_ok safe (known value rfl)
  | error fault =>
      apply allows_fault safe
      intro name same
      exact absurd (congrArg Except.error same) (bound name)

/-!
### Steps of the store
-/

/-- Trust is not lost while a store grows. -/
theorem Lawful.each_extends (lawful : discipline.Lawful) {before after : Store}
    (ordered : before.ParentsEarlier) (grown : before.Extends after) {value : Value}
    (each : value.Each (discipline.trusts before)) : value.Each (discipline.trusts after) :=
  each.mono fun _ trusted => lawful.trusts_extends ordered grown trusted

/-- A trusted value may be bound in a watched frame. -/
theorem Lawful.keeps_define (lawful : discipline.Lawful) {store : Store}
    (safe : discipline.Safe store) {frame : FrameId} (made : frame < store.size)
    (watched : discipline.watches frame) (name : String) {value : Value}
    (each : value.Each (discipline.trusts store))
    (whole : discipline.holds (store.define frame name value)) :
    discipline.Keeps store (store.define frame name value) := by
  have grown := Store.Extends.define made name value
  refine ⟨grown, ⟨safe.ordered.define frame name value, by simpa using safe.started, ?_, ?_, whole⟩, ?_⟩
  · intro other parent here link
    rw [Store.parent?_define] at link
    exact safe.outwards other parent here link
  · intro other wanted bound here found
    rw [Store.local?_define made] at found
    split at found
    · cases found
      exact lawful.each_extends safe.ordered grown each
    · exact lawful.each_extends safe.ordered grown (safe.trusted other wanted bound here found)
  · intro other _ unwatched
    apply Store.frame?_define_of_ne
    intro same
    exact unwatched (same ▸ watched)

/-- A trusted closure may be called with trusted operands. -/
theorem Lawful.keeps_enter (lawful : discipline.Lawful) {store : Store}
    (safe : discipline.Safe store) {home : FrameId} (made : home < store.size)
    (watched : discipline.watches home) (names : List String) {values : List Value}
    (each : ∀ value ∈ values, value.Each (discipline.trusts store))
    (whole : discipline.holds (store.enter home names values).2) :
    discipline.Keeps store (store.enter home names values).2 := by
  have grown := Store.Extends.enter store home names values
  refine ⟨grown, ⟨safe.ordered.enter made names values, ?_, ?_, ?_, whole⟩, ?_⟩
  · exact Nat.le_trans safe.started grown.size_le
  · intro other parent here link
    rw [Store.parent?_enter] at link
    split at link
    · cases link
      exact watched
    · exact safe.outwards other parent here link
  · intro other name value here found
    rcases Store.local?_enter found with operand | old
    · exact lawful.each_extends safe.ordered grown (each value operand)
    · exact lawful.each_extends safe.ordered grown (safe.trusted other name value here old)
  · intro other otherMade _
    exact Store.frame?_enter_of_lt otherMade home names values

/-- To make a closure changes no frame. -/
theorem Lawful.keeps_close (lawful : discipline.Lawful) {store : Store}
    (safe : discipline.Safe store)
    (whole : discipline.holds { store with closures := store.closures + 1 }) :
    discipline.Keeps store { store with closures := store.closures + 1 } := by
  have grown := Store.Extends.close store
  refine ⟨grown, ⟨safe.ordered, safe.started, safe.outwards, ?_, whole⟩, fun _ _ _ => rfl⟩
  intro frame name value here found
  exact lawful.each_extends safe.ordered grown (safe.trusted frame name value here found)

/-- All frames from a watched one outwards are watched. -/
theorem Safe.watches_chain {store : Store} (safe : discipline.Safe store) {frame link : FrameId}
    (watched : discipline.watches frame) (member : link ∈ store.chain frame) :
    discipline.watches link :=
  Store.forall_mem_chain safe.ordered safe.outwards watched link member

/-!
### Steps of evaluation

`Respects` is what the induction carries: an evaluator that may be used for what lies inside.
-/

/-- An evaluator that keeps to a discipline and yields only trusted closures. -/
def Respects (discipline : Discipline) (evaluator : Evaluator) : Prop :=
  ∀ (expression : Expr) (frame : FrameId) (machine : Machine), discipline.Safe machine.store →
    discipline.admits machine.store expression frame →
      discipline.Allows machine.store (fun value store => value.Each (discipline.trusts store))
        (evaluator expression frame machine)

/-- A fault of this name says of which variable it is that it is unbound, if it says so at all. -/
def Truthful (missing : String → Fault) : Prop :=
  ∀ name reported, missing name = .unboundVariable reported → reported = name

/-- A search that fails misses the name that its expression stands for. -/
theorem lookup_allows {missing : String → Fault} (truthful : Truthful missing)
    (lawful : discipline.Lawful) {name : String} {frame : FrameId} {machine : Machine}
    (safe : discipline.Safe machine.store)
    (admitted : discipline.admits machine.store (.symbol name) frame) (named : truth? name = none) :
    discipline.Allows machine.store (fun value store => value.Each (discipline.trusts store))
      (Eval.lookup missing frame name machine) := by
  have watched := (lawful.admits_made admitted).2
  cases found : machine.store.lookup? frame name with
  | some value =>
      rw [Eval.lookup_some found]
      obtain ⟨link, member, bound⟩ := Store.exists_mem_chain_of_lookup? found
      exact allows_ok safe (safe.trusted link name value (safe.watches_chain watched member) bound)
  | none =>
      rw [Eval.lookup_none found]
      apply allows_fault safe
      intro reported same
      rw [truthful name reported same]
      exact lawful.misses_variable safe admitted named (Store.lookup?_eq_none_iff.mp found)

/-- A tag needs no search. -/
theorem evaluateSymbol_allows {missing : String → Fault} (truthful : Truthful missing)
    (lawful : discipline.Lawful) {name : String} {frame : FrameId} {machine : Machine}
    (safe : discipline.Safe machine.store)
    (admitted : discipline.admits machine.store (.symbol name) frame) :
    discipline.Allows machine.store (fun value store => value.Each (discipline.trusts store))
      (evaluateSymbol missing name frame machine) := by
  unfold evaluateSymbol
  cases tag : truth? name with
  | some value => exact allows_ok safe (Value.each_boolean value)
  | none => exact lookup_allows truthful lawful safe admitted tag

/-- Operands in turn keep to the discipline, each from the store that the one before has left. -/
theorem evaluateOperands_allows {inner : Evaluator} (lawful : discipline.Lawful)
    (respects : discipline.Respects inner) (frame : FrameId) :
    ∀ (operands : List Expr) (machine : Machine), discipline.Safe machine.store →
      (∀ operand ∈ operands, discipline.admits machine.store operand frame) →
        discipline.Allows machine.store
          (fun values store => ∀ value ∈ values, value.Each (discipline.trusts store))
          (evaluateOperands inner frame operands machine)
  | [], machine, safe, _ => allows_ok safe (fun _ member => nomatch member)
  | operand :: operands, machine, safe, admitted => by
      obtain ⟨first, others⟩ := List.forall_mem_cons.mp admitted
      unfold evaluateOperands
      apply Allows.bind (respects operand frame machine safe first)
      intro value middle kept each
      have stillAdmitted : ∀ operand ∈ operands, discipline.admits middle.store operand frame :=
        fun operand member => lawful.admits_extends safe.ordered kept.grown (others operand member)
      apply Allows.bind
        (evaluateOperands_allows lawful respects frame operands middle kept.safe stillAdmitted)
      intro values later keptLater eachRest
      apply allows_ok keptLater.safe
      exact List.forall_mem_cons.mpr
        ⟨lawful.each_extends kept.safe.ordered keptLater.grown each, eachRest⟩

/-- So do the expressions of a sequence. -/
theorem evaluateSequence_allows {inner : Evaluator} (lawful : discipline.Lawful)
    (respects : discipline.Respects inner) (frame : FrameId) :
    ∀ (rest : List Expr) (first : Expr) (machine : Machine), discipline.Safe machine.store →
      (∀ part ∈ first :: rest, discipline.admits machine.store part frame) →
        discipline.Allows machine.store (fun value store => value.Each (discipline.trusts store))
          (evaluateSequence inner frame first rest machine)
  | [], first, machine, safe, admitted =>
      respects first frame machine safe (admitted first List.mem_cons_self)
  | next :: rest, first, machine, safe, admitted => by
      obtain ⟨here, others⟩ := List.forall_mem_cons.mp admitted
      unfold evaluateSequence
      apply Allows.bind (respects first frame machine safe here)
      intro _ middle kept _
      apply evaluateSequence_allows lawful respects frame rest next middle kept.safe
      intro part member
      exact lawful.admits_extends safe.ordered kept.grown (others part member)

/-- A call of a trusted value with trusted operands. -/
theorem applyWith_allows {inner : Evaluator} (lawful : discipline.Lawful)
    (respects : discipline.Respects inner) {callee : Value} {operands : List Value}
    (operator : String) {machine : Machine} (safe : discipline.Safe machine.store)
    (trusted : callee.Each (discipline.trusts machine.store))
    (each : ∀ operand ∈ operands, operand.Each (discipline.trusts machine.store)) :
    discipline.Allows machine.store (fun value store => value.Each (discipline.trusts store))
      (applyWith inner callee operands operator machine) := by
  unfold applyWith
  apply Allows.record
  intro logged sameStore
  rw [← sameStore] at safe trusted each
  cases callee with
  | primitive primitive =>
      have passed := primitive.call_passedOn each
      apply allows_ofExcept safe
      · intro result called
        rwa [called] at passed
      · intro name called
        rw [called] at passed
        exact passed name rfl
  | closure closure =>
      have known := (Value.each_closure closure).mp trusted
      obtain ⟨made, watched⟩ := lawful.trusts_home known
      by_cases counts : closure.parameters.length = operands.length
      · have kept := lawful.keeps_enter safe made watched closure.parameters each
          (lawful.holds_enter safe known counts each)
        have inside := lawful.admits_body safe known counts
        simp only [Eval.bind_ok (Eval.enter_of_counts counts)]
        exact (respects closure.body logged.store.size _ kept.safe inside).after kept
      · simp only [Eval.bind_error (Eval.enter_of_counts_ne counts)]
        exact allows_fault safe fun name same => nomatch same
  | number | symbol | boolean | list => exact allows_fault safe fun name same => nomatch same

/-- So does the head of an application, whatever a name that is missing there is called. -/
theorem evaluateOperatorAs_allows {missing : String → Fault} (truthful : Truthful missing)
    {inner : Evaluator} (lawful : discipline.Lawful) (respects : discipline.Respects inner)
    {head : Expr} {frame : FrameId} {machine : Machine} (safe : discipline.Safe machine.store)
    (admitted : discipline.admits machine.store head frame) :
    discipline.Allows machine.store (fun value store => value.Each (discipline.trusts store))
      (evaluateOperatorAs missing inner head frame machine) := by
  unfold evaluateOperatorAs
  have headAllows : discipline.Allows machine.store
      (fun value store => value.Each (discipline.trusts store))
      (evaluateHeadAs missing inner head frame machine) := by
    cases head with
    | symbol name => exact evaluateSymbol_allows truthful lawful safe admitted
    | number | list => exact respects _ frame machine safe admitted
  apply Allows.bind headAllows
  intro callee later kept each
  split
  · exact allows_ok kept.safe each
  · exact allows_fault kept.safe fun name same => nomatch same

/-!
### Special forms
-/

theorem bindingName_ne_unboundVariable (keyword : Keyword) (target : Expr) (name : String) :
    bindingName keyword target ≠ .error (.unboundVariable name) := by
  cases target <;> exact fun same => nomatch same

theorem parameterNames_ne_unboundVariable (name : String) :
    ∀ (items : List Expr) (taken : List String),
      parameterNames taken items ≠ .error (.unboundVariable name)
  | [], _ => fun same => nomatch same
  | item :: items, taken => by
      unfold parameterNames
      simp only [Bind.bind, Except.bind]
      cases bound : bindingName .lambda item with
      | error fault =>
          intro same
          cases same
          exact bindingName_ne_unboundVariable .lambda item name bound
      | ok first =>
          by_cases repeated : first ∈ taken
          · simp [repeated]
          · simp only [repeated, if_false]
            cases others : parameterNames (first :: taken) items with
            | error fault =>
                intro same
                cases same
                exact parameterNames_ne_unboundVariable name items _ others
            | ok names => exact fun same => nomatch same

/-- To refuse parameters is not to miss a name. -/
theorem parametersOf_ne_unboundVariable (parameters : Expr) (name : String) :
    parametersOf parameters ≠ .error (.unboundVariable name) := by
  cases parameters with
  | list items => exact parameterNames_ne_unboundVariable name items []
  | number | symbol => exact fun same => nomatch same

/-- A form that makes a procedure makes one that is trusted. -/
theorem close_allows (lawful : discipline.Lawful) {expression body : Expr} {names : List String}
    {frame : FrameId} {machine : Machine} (safe : discipline.Safe machine.store)
    (makes : Makes expression names body)
    (admitted : discipline.admits machine.store expression frame) :
    discipline.Allows machine.store (fun value store => value.Each (discipline.trusts store))
      (Eval.close names body frame machine) := by
  rw [Eval.close_apply]
  refine ⟨lawful.keeps_close safe (lawful.holds_close safe makes admitted), ?_⟩
  exact (Value.each_closure _).mpr (lawful.trusts_made safe makes admitted)

/-- What `define` and `set!` share: a name, and then the value of the body. -/
theorem binding_allows {inner : Evaluator}
    (respects : discipline.Respects inner) {keyword : Keyword} {target body : Expr}
    {next : String → Value → Eval Value} {frame : FrameId} {machine : Machine}
    (safe : discipline.Safe machine.store)
    (admitted : ∀ name, target = .symbol name → discipline.admits machine.store body frame)
    (bind : ∀ name value later, target = .symbol name → discipline.Keeps machine.store later.store →
      value.Each (discipline.trusts later.store) →
        discipline.Allows later.store (fun value store => value.Each (discipline.trusts store))
          (next name value later)) :
    discipline.Allows machine.store (fun value store => value.Each (discipline.trusts store))
      ((do
        let name ← Eval.ofExcept (bindingName keyword target)
        let value ← inner body frame
        next name value : Eval Value) machine) := by
  cases target with
  | symbol name =>
      apply Allows.bind (respects body frame machine safe (admitted name rfl))
      intro value later kept each
      exact bind name value later rfl kept each
  | number | list => exact allows_fault safe fun name same => nomatch same

/-- A special form keeps to the discipline, case by case. -/
theorem evaluateForm_allows {inner : Evaluator} (lawful : discipline.Lawful)
    (respects : discipline.Respects inner) {head : Expr} {keyword : Keyword} {operands : List Expr}
    {frame : FrameId} {machine : Machine} (named : Keyword.ofHead? head = some keyword)
    (safe : discipline.Safe machine.store)
    (admitted : discipline.admits machine.store (.list (head :: operands)) frame) :
    discipline.Allows machine.store (fun value store => value.Each (discipline.trusts store))
      (evaluateForm inner keyword operands frame machine) := by
  have part : ∀ {operand}, FormPart keyword operands operand →
      discipline.admits machine.store operand frame :=
    fun inForm => lawful.admits_part (.form named inForm) admitted
  obtain ⟨made, watched⟩ := lawful.admits_made admitted
  unfold evaluateForm
  split
  · -- quote
    next body => exact allows_ok safe (Value.each_ofDatum body)
  · -- define
    next target body =>
      apply binding_allows respects safe
        (fun name same => part (by subst same; exact .defined))
      intro name value later same kept each
      apply Allows.record
      intro logged sameStore
      rw [← sameStore] at kept each
      have here := Nat.lt_of_lt_of_le made kept.grown.size_le
      have still := lawful.admits_extends safe.ordered kept.grown admitted
      rw [same] at still
      have whole := lawful.holds_define kept.safe named still each
      exact ⟨lawful.keeps_define kept.safe here watched name each whole, Value.each_symbol name⟩
  · -- set!
    next target body =>
      apply binding_allows respects safe
        (fun name same => part (by subst same; exact .assigned))
      intro name value later same kept each
      apply Allows.record
      intro logged sameStore
      rw [← sameStore] at kept each
      have still := lawful.admits_extends safe.ordered kept.grown admitted
      rw [same] at still
      cases found : logged.store.nearest? frame name with
      | some link =>
          rw [Eval.bind_ok (Eval.assign_some found)]
          obtain ⟨member, bound⟩ := Store.mem_chain_of_nearest? found
          obtain ⟨old, oldBound⟩ := Option.isSome_iff_exists.mp bound
          have linkWatched := kept.safe.watches_chain watched member
          have linkMade := Store.lt_size_of_local? oldBound
          have whole := lawful.holds_assign kept.safe named still found each
          exact ⟨lawful.keeps_define kept.safe linkMade linkWatched name each whole,
            Value.each_symbol name⟩
      | none =>
          rw [Eval.bind_error (Eval.assign_none found)]
          apply allows_fault kept.safe
          intro reported report
          cases report
          exact lawful.misses_assignment kept.safe named still (Store.nearest?_eq_none_iff.mp found)
  · -- begin
    next first rest =>
      apply evaluateSequence_allows lawful respects frame rest first machine safe
      intro operand member
      exact part (.sequenced member)
  · -- if
    next condition consequent alternative =>
      apply Allows.bind (respects condition frame machine safe (part .condition))
      intro value later kept each
      have still : ∀ {operand}, discipline.admits machine.store operand frame →
          discipline.admits later.store operand frame :=
        fun known => lawful.admits_extends safe.ordered kept.grown known
      split
      · exact respects consequent frame later kept.safe (still (part .consequent))
      · exact respects alternative frame later kept.safe (still (part .alternative))
      · exact allows_fault kept.safe fun name same => nomatch same
  · -- lambda
    next parameters body =>
      cases shape : parametersOf parameters with
      | ok names => exact close_allows lawful safe (.lambda named shape) admitted
      | error fault =>
          apply allows_fault safe
          intro name same
          exact absurd (same ▸ shape) (parametersOf_ne_unboundVariable parameters name)
  · -- lambda-one
    next parameter body =>
      cases shape : bindingName .lambdaOne parameter with
      | ok name => exact close_allows lawful safe (.lambdaOne named shape) admitted
      | error fault =>
          apply allows_fault safe
          intro name same
          exact absurd (same ▸ shape) (bindingName_ne_unboundVariable .lambdaOne parameter name)
  · exact allows_fault safe fun name same => nomatch same

/-!
### Whole evaluations
-/

/-- One step of evaluation respects a lawful discipline if what evaluates the parts does. -/
theorem evaluateWithAs_respects {missing : String → Fault} (truthful : Truthful missing)
    {inner : Evaluator} (lawful : discipline.Lawful) (respects : discipline.Respects inner) :
    discipline.Respects (evaluateWithAs missing inner) := by
  intro expression frame machine safe admitted
  unfold evaluateWithAs
  split
  · exact allows_ok safe (Value.each_number _)
  · exact evaluateSymbol_allows (fun name reported same => by cases same; rfl) lawful safe admitted
  · exact allows_fault safe fun name same => nomatch same
  · next head operands =>
      cases named : Keyword.ofHead? head with
      | some keyword => exact evaluateForm_allows lawful respects named safe admitted
      | none =>
          have atHead := lawful.admits_part (.operator named) admitted
          apply Allows.bind (evaluateOperatorAs_allows truthful lawful respects safe atHead)
          intro callee middle kept trusted
          have atOperands : ∀ operand ∈ operands, discipline.admits middle.store operand frame :=
            fun operand member => lawful.admits_extends safe.ordered kept.grown
              (lawful.admits_part (.operand named member) admitted)
          apply Allows.bind
            (evaluateOperands_allows lawful respects frame operands middle kept.safe atOperands)
          intro values later keptLater each
          exact applyWith_allows lawful respects head.text keptLater.safe
            (lawful.each_extends kept.safe.ordered keptLater.grown trusted) each

/-- Every evaluation keeps to a lawful discipline, whatever it calls a name that is missing at the head. -/
theorem evaluateAs_respects {missing : String → Fault} (truthful : Truthful missing)
    (lawful : discipline.Lawful) (fuel : Nat) : discipline.Respects (evaluateAs missing fuel) := by
  induction fuel with
  | zero =>
      intro expression frame machine safe _
      exact ⟨.refl safe, fun name same => nomatch same⟩
  | succ fuel inductionHypothesis =>
      exact evaluateWithAs_respects truthful lawful inductionHypothesis

/-- Every evaluation keeps to a lawful discipline. -/
theorem evaluate_respects (lawful : discipline.Lawful) (fuel : Nat) :
    discipline.Respects (evaluate fuel) := by
  rw [← evaluateAs_unknownOperator]
  exact evaluateAs_respects (fun name reported same => by cases same) lawful fuel

/-- An event that is logged on a fault changes nothing that a discipline is about. -/
theorem Allows.onFault {good : α → Store → Prop} {action : Eval α} {event : Fault → Event}
    {machine : Machine} {before : Store} (allows : discipline.Allows before good (action machine)) :
    discipline.Allows before good (action.onFault event machine) := by
  unfold Eval.onFault
  cases ending : action machine with
  | ok value later =>
      rw [ending] at allows
      exact allows
  | error stop later =>
      rw [ending] at allows
      cases stop <;> exact allows

/-- The forms of a program keep to a lawful discipline that admits each of them, whatever evaluator that keeps
    to it they are given to. -/
theorem evaluateFormsBy_allows (lawful : discipline.Lawful) {evaluator : Evaluator}
    (respects : discipline.Respects evaluator) (frame : FrameId) :
    ∀ (forms : List Expr) (index : Nat) (last : Value) (machine : Machine),
      discipline.Safe machine.store → last.Each (discipline.trusts machine.store) →
        (∀ form ∈ forms, discipline.admits machine.store form frame) →
          discipline.Allows machine.store (fun value store => value.Each (discipline.trusts store))
            (evaluateFormsBy evaluator frame index last forms machine)
  | [], _, _, _, safe, each, _ => allows_ok safe each
  | form :: forms, index, last, machine, safe, _, admitted => by
      obtain ⟨first, others⟩ := List.forall_mem_cons.mp admitted
      unfold evaluateFormsBy
      apply Allows.bind (respects form frame machine safe first).onFault
      intro value later kept each
      apply evaluateFormsBy_allows lawful respects frame forms (index + 1) value later kept.safe each
      intro form member
      exact lawful.admits_extends safe.ordered kept.grown (others form member)

/-- The forms of a program keep to a lawful discipline that admits each of them. -/
theorem evaluateFormsFrom_allows (lawful : discipline.Lawful) (fuel : Nat) (frame : FrameId)
    (forms : List Expr) (index : Nat) (last : Value) (machine : Machine)
    (safe : discipline.Safe machine.store) (each : last.Each (discipline.trusts machine.store))
    (admitted : ∀ form ∈ forms, discipline.admits machine.store form frame) :
    discipline.Allows machine.store (fun value store => value.Each (discipline.trusts store))
      (evaluateFormsFrom fuel frame index last forms machine) := by
  rw [← evaluateFormsBy_evaluate]
  exact evaluateFormsBy_allows lawful (evaluate_respects lawful fuel) frame forms index last machine safe
    each admitted

end Discipline

end LexLisp
