/-
Module: LexLisp.Proofs.FrameNames
Purpose: Which names a frame can come to bind, read off the text of the program. A definition binds its name in
  the frame in which it is evaluated, so the global frame gains only names that forms define outside procedure
  bodies, and the frame of a call only names that the called body defines outside procedures of its own. To say
  which closure made which frame, the calls of a run are listed in the order in which their frames are made.
Main exports: Expr.definedNames, callsUntil, callsOfForms, Accounted, evaluateUntil_tracks,
  bindsLocally_of_call, frame_names_foreseen
-/
import LexLisp.Proofs.Interruption

namespace LexLisp

/-!
### Defined names
-/

mutual

/-- The names that the definitions in an expression bind, outside quoted data and outside procedure bodies. -/
def Expr.definedNames : Expr → List String
  | .number _ => []
  | .symbol _ => []
  | .list [] => []
  | .list (head :: operands) =>
    match Keyword.ofHead? head, operands with
    | some .quote, _ => []
    | some .lambda, _ => []
    | some .lambdaOne, _ => []
    | some .define, [.symbol name, body] => name :: body.definedNames
    | _, operands => head.definedNames ++ definedNamesAmong operands

/-- The names that the definitions in some expressions bind. -/
def Expr.definedNamesAmong : List Expr → List String
  | [] => []
  | item :: items => item.definedNames ++ definedNamesAmong items

end

example : (Expr.list [.symbol "begin", .list [.symbol "define", .symbol "a",
    .list [.symbol "lambda", .list [], .list [.symbol "define", .symbol "b", .number 1]]],
      .list [.symbol "f", .list [.symbol "define", .symbol "c", .number 2]]]).definedNames =
        ["a", "c"] := by
  decide

namespace Expr

theorem mem_definedNamesAmong {name : String} {item : Expr} {items : List Expr} (member : item ∈ items)
    (defined : name ∈ item.definedNames) : name ∈ definedNamesAmong items := by
  induction items with
  | nil => cases member
  | cons first rest inductionHypothesis =>
      rw [definedNamesAmong, List.mem_append]
      rcases List.mem_cons.mp member with same | later
      · exact Or.inl (same ▸ defined)
      · exact Or.inr (inductionHypothesis later)

theorem mem_definedNames_define {head body : Expr} {name : String}
    (named : Keyword.ofHead? head = some .define) :
    name ∈ (list [head, symbol name, body]).definedNames := by
  simp [definedNames, named]

/-- What a part defines in the frame of the whole, the whole defines. -/
theorem mem_definedNames_of_part {name : String} {whole part : Expr} (inside : Part whole part)
    (defined : name ∈ part.definedNames) : name ∈ whole.definedNames := by
  cases inside with
  | form named inForm =>
      cases inForm with
      | defined => simp [definedNames, named, defined]
      | assigned | condition | consequent | alternative =>
          simp [definedNames, definedNamesAmong, named, defined]
      | sequenced member => simp [definedNames, named, mem_definedNamesAmong member defined]
  | operator plain => simp [definedNames, plain, defined]
  | operand plain member => simp [definedNames, plain, mem_definedNamesAmong member defined]

end Expr

/-!
### The calls of a run

The functions below follow the evaluator and take every intermediate machine from it. They list the closures
that are called, one for each frame that is made. A call with a wrong number of operands makes no frame.
-/

/-- The closures that are called when an expression is evaluated in a frame. -/
abbrev Calls := Expr → FrameId → Machine → List Closure

/-- What comes after an action, if it yields a value. -/
def Ending.follow {α : Type} (next : α → Machine → List Closure) : Ending α → List Closure
  | .ok value machine => next value machine
  | .error _ _ => []

/-- The calls of expressions that are evaluated one after another. -/
def callsAmong (inner : Evaluator) (calls : Calls) (frame : FrameId) : List Expr → Machine → List Closure
  | [], _ => []
  | expression :: rest, machine =>
    calls expression frame machine ++
      Ending.follow (fun _ later => callsAmong inner calls frame rest later) (inner expression frame machine)

/-- The calls of a call: itself, and those of the body. -/
def callsOfApplication (calls : Calls) (callee : Value) (operands : List Value) (machine : Machine) :
    List Closure :=
  match callee with
  | .closure closure =>
    if closure.parameters.length = operands.length then
      closure :: calls closure.body machine.store.size
        { machine with store := (machine.store.enter closure.home closure.parameters operands).2 }
    else []
  | _ => []

/-- The calls of the head of an application. -/
def callsOfHead (calls : Calls) (head : Expr) (frame : FrameId) (machine : Machine) : List Closure :=
  match head with
  | .symbol _ => []
  | other => calls other frame machine

/-- The calls of a special form. -/
def callsOfForm (inner : Evaluator) (calls : Calls) (keyword : Keyword) (operands : List Expr)
    (frame : FrameId) (machine : Machine) : List Closure :=
  match keyword, operands with
  | .define, [.symbol _, body] => calls body frame machine
  | .assign, [.symbol _, body] => calls body frame machine
  | .sequence, first :: rest => callsAmong inner calls frame (first :: rest) machine
  | .conditional, [condition, consequent, alternative] =>
    calls condition frame machine ++
      Ending.follow
        (fun value later =>
          match value with
          | .boolean true => calls consequent frame later
          | .boolean false => calls alternative frame later
          | _ => [])
        (inner condition frame machine)
  | _, _ => []

/-- The calls of one step of evaluation. -/
def callsWith (inner : Evaluator) (calls : Calls) (expression : Expr) (frame : FrameId)
    (machine : Machine) : List Closure :=
  match expression with
  | .list (head :: operands) =>
    match Keyword.ofHead? head with
    | some keyword => callsOfForm inner calls keyword operands frame machine
    | none =>
      callsOfHead calls head frame machine ++
        Ending.follow
          (fun callee middle =>
            callsAmong inner calls frame operands middle ++
              Ending.follow
                (fun values later =>
                  callsOfApplication calls callee values
                    { later with log := later.log.push (.apply head.text values.length) })
                (evaluateOperands inner frame operands middle))
          (evaluateOperator inner head frame machine)
  | _ => []

/-- The calls of an evaluation up to a cut. -/
def callsUntil (cut : Cut) : Nat → Calls
  | 0, _, _, _ => []
  | fuel + 1, expression, frame, machine =>
    if cut expression frame machine then []
    else callsWith (evaluateUntil cut fuel) (callsUntil cut fuel) expression frame machine

/-- The calls of the forms of a program up to a cut. -/
def callsOfForms (cut : Cut) (fuel : Nat) (forms : List Expr) (frame : FrameId) (machine : Machine) :
    List Closure :=
  callsAmong (evaluateUntil cut fuel) (callsUntil cut fuel) frame forms machine

/-!
### Frames and the calls that made them
-/

/-- The names that a frame may bind: one of the first frames those that are given for it, and each later frame
    the parameters of the closure whose call made it and the names that the body defines. -/
def Foreseen (first : Nat) (given : FrameId → String → Prop) (calls : List Closure) (frame : Nat)
    (name : String) : Prop :=
  if frame < first then given frame name
  else ∃ closure, calls[frame - first]? = some closure ∧
    (name ∈ closure.parameters ∨ name ∈ closure.body.definedNames)

/-- Every frame behind the first ones belongs to a call: it stands in the closure's frame and binds the
    parameters, and no frame binds a name that is not foreseen. -/
structure Accounted (first : Nat) (given : FrameId → String → Prop) (calls : List Closure)
    (store : Store) : Prop where
  size_eq : store.size = first + calls.length
  foreseen : ∀ frame name, store.bindsLocally frame name = true → Foreseen first given calls frame name
  owned : ∀ (index : Nat) closure, calls[index]? = some closure →
    store.parent? (first + index) = some closure.home ∧
      ∀ name ∈ closure.parameters, store.bindsLocally (first + index) name = true

/-- An expression may be evaluated in a frame: the frame is made, and what the expression defines is foreseen
    there. -/
def Permits (first : Nat) (given : FrameId → String → Prop) (calls : List Closure) (expression : Expr)
    (frame : Nat) : Prop :=
  frame < first + calls.length ∧ ∀ name ∈ expression.definedNames, Foreseen first given calls frame name

/-- What the frame of a call binds at first is a parameter. -/
theorem Store.mem_of_bindsLocally_enter {store : Store} {home : FrameId} {names : List String}
    {values : List Value} {name : String}
    (bound : (store.enter home names values).2.bindsLocally store.size name = true) : name ∈ names := by
  unfold Store.bindsLocally Store.local? at bound
  rw [Store.frame?_enter, if_pos rfl] at bound
  rcases Bindings.mem_of_get?_insertAll (names.zip values) .empty bound with member | before
  · obtain ⟨⟨parameter, operand⟩, inside, same⟩ := List.mem_map.mp member
    exact same ▸ (List.of_mem_zip inside).1
  · cases before

section Steps

variable {first : Nat} {given : FrameId → String → Prop} {calls : List Closure} {store : Store}

theorem Foreseen.append {frame : Nat} {name : String} (foreseen : Foreseen first given calls frame name)
    (more : List Closure) : Foreseen first given (calls ++ more) frame name := by
  unfold Foreseen at foreseen ⊢
  split
  · next early => rwa [if_pos early] at foreseen
  · next late =>
      rw [if_neg late] at foreseen
      obtain ⟨closure, found, bound⟩ := foreseen
      obtain ⟨short, _⟩ := List.getElem?_eq_some_iff.mp found
      exact ⟨closure, by rw [List.getElem?_append_left short, found], bound⟩

/-- The frame of the last call so far. -/
theorem foreseen_last {closure : Closure} {name : String}
    (bound : name ∈ closure.parameters ∨ name ∈ closure.body.definedNames) :
    Foreseen first given (calls ++ [closure]) (first + calls.length) name := by
  unfold Foreseen
  rw [if_neg (Nat.not_lt.mpr (Nat.le_add_right first calls.length))]
  exact ⟨closure, by simp, bound⟩

theorem Permits.append {expression : Expr} {frame : FrameId}
    (permits : Permits first given calls expression frame) (more : List Closure) :
    Permits first given (calls ++ more) expression frame := by
  refine ⟨?_, fun name defined => (permits.2 name defined).append more⟩
  have longer : calls.length ≤ (calls ++ more).length := by simp
  exact Nat.lt_of_lt_of_le permits.1 (Nat.add_le_add_left longer first)

theorem Permits.part {whole part : Expr} {frame : FrameId} (permits : Permits first given calls whole frame)
    (inside : Part whole part) : Permits first given calls part frame :=
  ⟨permits.1, fun name defined => permits.2 name (Expr.mem_definedNames_of_part inside defined)⟩

/-- A definition of a foreseen name. -/
theorem Accounted.define (accounted : Accounted first given calls store) {frame : FrameId} {name : String}
    (made : frame < store.size) (foreseen : Foreseen first given calls frame name) (value : Value) :
    Accounted first given calls (store.define frame name value) where
  size_eq := by rw [Store.size_define, accounted.size_eq]
  foreseen other wanted bound := by
    unfold Store.bindsLocally at bound
    rw [Store.local?_define made] at bound
    split at bound
    · next same => rw [same.1, same.2]; exact foreseen
    · exact accounted.foreseen other wanted bound
  owned index closure called := by
    obtain ⟨inside, bound⟩ := accounted.owned index closure called
    refine ⟨by rw [Store.parent?_define, inside], ?_⟩
    intro parameter member
    exact (Store.Extends.define made name value).keeps_names _ parameter (bound parameter member)

/-- An assignment binds no name that its frame did not bind. -/
theorem Accounted.assign (accounted : Accounted first given calls store) {frame link : FrameId} {name : String}
    (found : store.nearest? frame name = some link) (value : Value) :
    Accounted first given calls (store.define link name value) := by
  obtain ⟨_, bound⟩ := Store.mem_chain_of_nearest? found
  obtain ⟨old, oldBound⟩ := Option.isSome_iff_exists.mp bound
  exact accounted.define (Store.lt_size_of_local? oldBound) (accounted.foreseen link name bound) value

/-- A call adds its frame. -/
theorem Accounted.enter (accounted : Accounted first given calls store) {closure : Closure}
    {values : List Value} (counts : closure.parameters.length = values.length) :
    Accounted first given (calls ++ [closure])
      (store.enter closure.home closure.parameters values).2 where
  size_eq := by
    rw [Store.size_enter, accounted.size_eq, List.length_append, List.length_singleton, Nat.add_assoc]
  foreseen frame name bound := by
    by_cases newest : frame = store.size
    · rw [newest] at bound ⊢
      rw [accounted.size_eq]
      exact foreseen_last (Or.inl (Store.mem_of_bindsLocally_enter bound))
    · apply (accounted.foreseen frame name _).append
      unfold Store.bindsLocally Store.local? at bound ⊢
      rwa [Store.frame?_enter, if_neg newest] at bound
  owned index other called := by
    rcases Nat.lt_or_ge index calls.length with old | new
    · rw [List.getElem?_append_left old] at called
      obtain ⟨inside, bound⟩ := accounted.owned index other called
      have different : first + index ≠ store.size := by
        rw [accounted.size_eq]
        exact Nat.ne_of_lt (Nat.add_lt_add_left old first)
      refine ⟨by rw [Store.parent?_enter, if_neg different, inside], ?_⟩
      intro parameter member
      exact (Store.Extends.enter store closure.home closure.parameters values).keeps_names _ parameter
        (bound parameter member)
    · rw [List.getElem?_append_right new] at called
      obtain ⟨single, same⟩ := List.getElem?_eq_some_iff.mp called
      have last : index = calls.length := by
        rw [List.length_singleton] at single
        omega
      have newest : first + index = store.size := by rw [accounted.size_eq, last]
      obtain rfl : closure = other := by simpa using same
      refine ⟨by rw [Store.parent?_enter, if_pos newest], ?_⟩
      intro parameter member
      rw [newest]
      exact Store.bindsLocally_enter counts member

/-- A new closure changes no frame. -/
theorem Accounted.close (accounted : Accounted first given calls store) :
    Accounted first given calls { store with closures := store.closures + 1 } :=
  ⟨accounted.size_eq, accounted.foreseen, accounted.owned⟩

end Steps

/-!
### Runs

The induction is on the fuel. What it carries is `Tracks`: an evaluator that leaves the store accounted for by the
calls before it and its own.
-/

/-- These are the calls of an evaluator, and it binds no name that is not foreseen. -/
def Tracks (first : Nat) (given : FrameId → String → Prop) (inner : Evaluator) (calls : Calls) : Prop :=
  ∀ (expression : Expr) (frame : FrameId) (machine : Machine) (past : List Closure),
    Accounted first given past machine.store → Permits first given past expression frame →
      Accounted first given (past ++ calls expression frame machine)
        (Ending.store (inner expression frame machine))

section Runs

variable {first : Nat} {given : FrameId → String → Prop} {past : List Closure} {machine : Machine} {α β : Type}

/-- An action without calls. -/
theorem Accounted.quiet {store : Store} {more : List Closure} (none : more = [])
    (accounted : Accounted first given past store) : Accounted first given (past ++ more) store := by
  rw [none, List.append_nil]
  exact accounted

/-- Two actions in sequence, the second of which is made only if the first yields a value. -/
theorem Accounted.bind {action : Eval β} {next : β → Eval α} {now : List Closure}
    {behind : β → Machine → List Closure}
    (early : Accounted first given (past ++ now) (Ending.store (action machine)))
    (late : ∀ value middle, Accounted first given (past ++ now) middle.store →
      Accounted first given (past ++ now ++ behind value middle) (Ending.store (next value middle))) :
    Accounted first given (past ++ (now ++ Ending.follow behind (action machine)))
      (Ending.store ((action >>= next) machine)) := by
  cases ending : action machine with
  | ok value middle =>
      rw [ending] at early
      rw [Eval.bind_ok ending, ← List.append_assoc]
      exact late value middle early
  | error stop middle =>
      rw [ending] at early
      rw [Eval.bind_error ending, Ending.follow, List.append_nil]
      exact early

/-- An action without calls behind another one. -/
theorem Accounted.bind_quiet {action : Eval β} {next : β → Eval α} {now : List Closure}
    (early : Accounted first given (past ++ now) (Ending.store (action machine)))
    (late : ∀ value middle, Accounted first given (past ++ now) middle.store →
      Accounted first given (past ++ now) (Ending.store (next value middle))) :
    Accounted first given (past ++ now) (Ending.store ((action >>= next) machine)) := by
  cases ending : action machine with
  | ok value middle =>
      rw [ending] at early
      rw [Eval.bind_ok ending]
      exact late value middle early
  | error stop middle =>
      rw [ending] at early
      rw [Eval.bind_error ending]
      exact early

theorem evaluateSymbol_store (missing : String → Fault) (name : String) (frame : FrameId)
    (machine : Machine) : Ending.store (evaluateSymbol missing name frame machine) = machine.store := by
  unfold evaluateSymbol
  cases truth? name with
  | some value => rfl
  | none =>
      cases found : machine.store.lookup? frame name with
      | some value => simp only [Eval.lookup_some found]; rfl
      | none => simp only [Eval.lookup_none found]; rfl

variable {inner : Evaluator} {calls : Calls}

theorem evaluateOperands_tracks (tracks : Tracks first given inner calls) (frame : FrameId) :
    ∀ (operands : List Expr) (machine : Machine) (past : List Closure),
      Accounted first given past machine.store → (∀ operand ∈ operands, Permits first given past operand frame) →
        Accounted first given (past ++ callsAmong inner calls frame operands machine)
          (Ending.store (evaluateOperands inner frame operands machine))
  | [], _, _, accounted, _ => accounted.quiet rfl
  | operand :: operands, machine, past, accounted, permitted => by
      obtain ⟨here, others⟩ := List.forall_mem_cons.mp permitted
      unfold callsAmong evaluateOperands
      apply Accounted.bind (tracks operand frame machine past accounted here)
      intro value middle accounted
      apply Accounted.bind_quiet
      · apply evaluateOperands_tracks tracks frame operands middle _ accounted
        exact fun operand member => (others operand member).append _
      · exact fun values later accounted => accounted

theorem evaluateSequence_tracks (tracks : Tracks first given inner calls) (frame : FrameId) :
    ∀ (rest : List Expr) (head : Expr) (machine : Machine) (past : List Closure),
      Accounted first given past machine.store →
        (∀ part ∈ head :: rest, Permits first given past part frame) →
          Accounted first given (past ++ callsAmong inner calls frame (head :: rest) machine)
            (Ending.store (evaluateSequence inner frame head rest machine))
  | [], head, machine, past, accounted, permitted => by
      have quiet : Ending.follow (fun _ later => callsAmong inner calls frame [] later)
          (inner head frame machine) = [] := by
        cases inner head frame machine with
        | ok value later => rfl
        | error stop later => rfl
      rw [callsAmong, quiet, List.append_nil]
      exact tracks head frame machine past accounted (permitted head List.mem_cons_self)
  | next :: rest, head, machine, past, accounted, permitted => by
      obtain ⟨here, others⟩ := List.forall_mem_cons.mp permitted
      unfold evaluateSequence
      rw [callsAmong]
      apply Accounted.bind (tracks head frame machine past accounted here)
      intro _ middle accounted
      apply evaluateSequence_tracks tracks frame rest next middle _ accounted
      exact fun part member => (others part member).append _

/-- The frame of a call is the last one so far, and the body may define in it what it defines. -/
theorem permits_body {closure : Closure} {store : Store} (accounted : Accounted first given past store) :
    Permits first given (past ++ [closure]) closure.body store.size := by
  rw [accounted.size_eq]
  refine ⟨by simp, ?_⟩
  intro name defined
  exact foreseen_last (Or.inr defined)

theorem applyWith_tracks (tracks : Tracks first given inner calls) (callee : Value) (operands : List Value)
    (operator : String) (accounted : Accounted first given past machine.store) :
    Accounted first given
      (past ++ callsOfApplication calls callee operands
        { machine with log := machine.log.push (.apply operator operands.length) })
      (Ending.store (applyWith inner callee operands operator machine)) := by
  unfold applyWith
  rw [Eval.bind_ok (Eval.record_apply _ machine)]
  cases callee with
  | primitive primitive =>
      apply Accounted.quiet rfl
      simp only
      cases primitive.call operands with
      | ok value => exact accounted
      | error fault => exact accounted
  | closure closure =>
      by_cases counts : closure.parameters.length = operands.length
      · have entered := accounted.enter counts
        simp only [callsOfApplication, if_pos counts, Eval.bind_ok (Eval.enter_of_counts counts)]
        have inside := tracks closure.body machine.store.size
          { store := (machine.store.enter closure.home closure.parameters operands).2,
            log := machine.log.push (.apply operator operands.length) }
          (past ++ [closure]) entered (permits_body accounted)
        rw [List.append_assoc, List.singleton_append] at inside
        exact inside
      · simp only [callsOfApplication, if_neg counts, List.append_nil,
          Eval.bind_error (Eval.enter_of_counts_ne counts)]
        exact accounted
  | number | symbol | boolean | list => exact accounted.quiet rfl

theorem evaluateOperator_tracks (tracks : Tracks first given inner calls) {head : Expr} {frame : FrameId}
    (accounted : Accounted first given past machine.store) (permitted : Permits first given past head frame) :
    Accounted first given (past ++ callsOfHead calls head frame machine)
      (Ending.store (evaluateOperator inner head frame machine)) := by
  unfold evaluateOperator
  apply Accounted.bind_quiet
  · cases head with
    | symbol name =>
        apply Accounted.quiet rfl
        rw [evaluateHead, evaluateSymbol_store]
        exact accounted
    | number | list => exact tracks _ frame machine past accounted permitted
  · intro callee later accounted
    split
    · exact accounted
    · exact accounted

/-- What `define` and `set!` share: a name, and then the value of the body. -/
theorem binding_tracks (tracks : Tracks first given inner calls) {keyword : Keyword} {name : String}
    {body : Expr} {next : String → Value → Eval Value} {frame : FrameId}
    (accounted : Accounted first given past machine.store) (permitted : Permits first given past body frame)
    (bind : ∀ value later, Accounted first given (past ++ calls body frame machine) later.store →
      Accounted first given (past ++ calls body frame machine) (Ending.store (next name value later))) :
    Accounted first given (past ++ calls body frame machine)
      (Ending.store ((do
        let name ← Eval.ofExcept (bindingName keyword (.symbol name))
        let value ← inner body frame
        next name value : Eval Value) machine)) := by
  rw [bindingName, Eval.ofExcept, pure_bind]
  exact Accounted.bind_quiet (tracks body frame machine past accounted permitted) bind

theorem evaluateForm_tracks (tracks : Tracks first given inner calls) {head : Expr} {keyword : Keyword}
    {operands : List Expr} {frame : FrameId} (named : Keyword.ofHead? head = some keyword)
    (accounted : Accounted first given past machine.store)
    (permitted : Permits first given past (.list (head :: operands)) frame) :
    Accounted first given (past ++ callsOfForm inner calls keyword operands frame machine)
      (Ending.store (evaluateForm inner keyword operands frame machine)) := by
  have part : ∀ {operand}, FormPart keyword operands operand → Permits first given past operand frame :=
    fun inForm => permitted.part (.form named inForm)
  unfold evaluateForm
  split
  · -- quote
    exact accounted.quiet rfl
  · -- define
    next target body =>
      cases target with
      | symbol name =>
          apply binding_tracks tracks accounted (part .defined)
          intro value later accounted
          have foreseen := (permitted.append (calls body frame machine)).2 name
            (Expr.mem_definedNames_define named)
          have made : frame < later.store.size := by
            rw [accounted.size_eq]
            exact (permitted.append _).1
          exact accounted.define made foreseen value
      | number | list => exact accounted.quiet rfl
  · -- set!
    next target body =>
      cases target with
      | symbol name =>
          apply binding_tracks tracks accounted (part .assigned)
          intro value later accounted
          rw [Eval.bind_ok (Eval.record_apply _ later)]
          generalize logging : (⟨later.store, later.log.push (.assign name value)⟩ : Machine) = logged
          have sameStore : later.store = logged.store := by rw [← logging]
          rw [sameStore] at accounted
          cases found : logged.store.nearest? frame name with
          | some link =>
              rw [Eval.bind_ok (Eval.assign_some found)]
              exact accounted.assign found value
          | none =>
              rw [Eval.bind_error (Eval.assign_none found)]
              exact accounted
      | number | list => exact accounted.quiet rfl
  · -- begin
    next first rest =>
      apply evaluateSequence_tracks tracks frame rest first machine past accounted
      exact fun operand member => part (.sequenced member)
  · -- if
    next condition consequent alternative =>
      apply Accounted.bind (tracks condition frame machine past accounted (part .condition))
      intro value later accounted
      cases value with
      | boolean truth =>
          cases truth with
          | true => exact tracks consequent frame later _ accounted ((part .consequent).append _)
          | false => exact tracks alternative frame later _ accounted ((part .alternative).append _)
      | number | symbol | list | primitive | closure => exact accounted.quiet rfl
  · -- lambda
    next parameters body =>
      apply Accounted.quiet rfl
      cases parametersOf parameters with
      | ok names => exact accounted.close
      | error fault => exact accounted
  · -- lambda-one
    next parameter body =>
      apply Accounted.quiet rfl
      cases bindingName .lambdaOne parameter with
      | ok name => exact accounted.close
      | error fault => exact accounted
  · -- a wrong number of operands
    next notQuote notDefine notAssign notSequence notConditional notLambda notLambdaOne =>
      apply Accounted.quiet _ accounted
      unfold callsOfForm
      split <;> simp_all

theorem evaluateWith_tracks (tracks : Tracks first given inner calls) :
    Tracks first given (evaluateWith inner) (callsWith inner calls) := by
  intro expression frame machine past accounted permitted
  unfold evaluateWith callsWith
  cases expression with
  | number value => exact accounted.quiet rfl
  | symbol name =>
      apply Accounted.quiet rfl
      simp only [evaluateSymbol_store]
      exact accounted
  | list items =>
      cases items with
      | nil => exact accounted.quiet rfl
      | cons head operands =>
          cases named : Keyword.ofHead? head with
          | some keyword =>
              simp only [named]
              exact evaluateForm_tracks tracks named accounted permitted
          | none =>
              simp only [named]
              apply Accounted.bind
                (evaluateOperator_tracks tracks accounted (permitted.part (.operator named)))
              intro callee middle accounted
              apply Accounted.bind
              · apply evaluateOperands_tracks tracks frame operands middle _ accounted
                exact fun operand member => (permitted.part (.operand named member)).append _
              · intro values later accounted
                exact applyWith_tracks tracks callee values head.text accounted

/-- The calls of an evaluation up to a cut make the frames that it makes. -/
theorem evaluateUntil_tracks (cut : Cut) (fuel : Nat) :
    Tracks first given (evaluateUntil cut fuel) (callsUntil cut fuel) := by
  induction fuel with
  | zero =>
      intro expression frame machine past accounted _
      exact accounted.quiet rfl
  | succ fuel inductionHypothesis =>
      intro expression frame machine past accounted permitted
      unfold evaluateUntil callsUntil
      by_cases stops : cut expression frame machine = true
      · simp only [if_pos stops]
        exact accounted.quiet rfl
      · simp only [if_neg stops]
        exact evaluateWith_tracks inductionHypothesis expression frame machine past accounted permitted

theorem evaluateFormsBy_tracks (tracks : Tracks first given inner calls) (frame : FrameId) :
    ∀ (forms : List Expr) (index : Nat) (last : Value) (machine : Machine) (past : List Closure),
      Accounted first given past machine.store → (∀ form ∈ forms, Permits first given past form frame) →
        Accounted first given (past ++ callsAmong inner calls frame forms machine)
          (Ending.store (evaluateFormsBy inner frame index last forms machine))
  | [], _, _, _, _, accounted, _ => accounted.quiet rfl
  | form :: forms, index, last, machine, past, accounted, permitted => by
      obtain ⟨here, others⟩ := List.forall_mem_cons.mp permitted
      have step := tracks form frame machine past accounted here
      unfold evaluateFormsBy callsAmong
      cases ending : inner form frame machine with
      | ok value middle =>
          rw [ending] at step
          rw [Eval.bind_ok (Eval.onFault_ok ending), Ending.follow, ← List.append_assoc]
          apply evaluateFormsBy_tracks tracks frame forms (index + 1) value middle _ step
          exact fun form member => (others form member).append _
      | error stop middle =>
          rw [ending] at step
          obtain ⟨logged, reported, same⟩ :=
            Eval.onFault_error ending fun fault => .failed index form fault
          rw [Eval.bind_error reported, Ending.follow, List.append_nil]
          exact (congrArg (Accounted first given _) same).mpr step

end Runs

/-!
### Whole programs
-/

/-- The names of the frames before a call are given, and no frame is made yet. -/
theorem accounted_start (store : Store) :
    Accounted store.size (fun frame name => store.bindsLocally frame name = true) [] store where
  size_eq := rfl
  foreseen frame name bound := by
    obtain ⟨value, found⟩ := Option.isSome_iff_exists.mp bound
    rw [Foreseen, if_pos (Store.lt_size_of_local? found)]
    exact bound
  owned index closure called := nomatch called

/-- A call adds no name to any frame made before it: what the body defines is bound in the frame of the call. -/
theorem bindsLocally_of_call (cut : Cut) (fuel : Nat) (closure : Closure) (operands : List Value)
    (operator : String) (machine : Machine) {frame : FrameId} {name : String}
    (made : frame < machine.store.size)
    (bound : (Ending.store (applyWith (evaluateUntil cut fuel) (.closure closure) operands operator
      machine)).bindsLocally frame name = true) :
    machine.store.bindsLocally frame name = true := by
  have accounted := applyWith_tracks (evaluateUntil_tracks cut fuel) (.closure closure) operands operator
    (accounted_start machine.store)
  have foreseen := accounted.foreseen frame name bound
  rwa [Foreseen, if_pos made] at foreseen

/-- The names given to the global frame: those that it binds at the start and those that the forms define. -/
def GlobalNames (store : Store) (forms : List Expr) (_ : FrameId) (name : String) : Prop :=
  store.bindsLocally Store.globalFrame name = true ∨ name ∈ Expr.definedNamesAmong forms

theorem Store.Pristine.accounted {store : Store} (pristine : store.Pristine) (forms : List Expr) :
    Accounted 1 (GlobalNames store forms) [] store where
  size_eq := pristine.size_eq
  foreseen frame name bound := by
    obtain ⟨value, found⟩ := Option.isSome_iff_exists.mp bound
    have isGlobal := pristine.eq_globalFrame (Store.lt_size_of_local? found)
    rw [Foreseen, if_pos (isGlobal ▸ Nat.zero_lt_one)]
    exact Or.inl (isGlobal ▸ bound)
  owned index closure called := nomatch called

theorem Store.Pristine.wellFormed {store : Store} (pristine : store.Pristine) : store.WellFormed where
  ordered := pristine.ordered
  known _ _ _ found := pristine.each found

/-- Frames bind the names that the text foretells. In every state of a run, wherever it is cut off and however
    it ends, the global frame binds what it bound at the start and otherwise only what the forms define outside
    procedure bodies. The other frames are those of the calls, in order: each stands in the frame of its
    closure, binds the parameters, and otherwise binds only what the body defines. And no call adds a name to
    a frame made before it, the caller's among them. -/
theorem frame_names_foreseen (cut : Cut) (fuel : Nat) (forms : List Expr) {machine : Machine}
    {store : Store} {calls : List Closure} (pristine : machine.store.Pristine)
    (passed : Ending.store (evaluateFormsUntil cut fuel forms Store.globalFrame machine) = store)
    (called : callsOfForms cut fuel forms Store.globalFrame machine = calls) :
    (∀ name, machine.store.bindsLocally Store.globalFrame name = true →
      store.bindsLocally Store.globalFrame name = true) ∧
    (∀ name, store.bindsLocally Store.globalFrame name = true →
      machine.store.bindsLocally Store.globalFrame name = true ∨
        name ∈ Expr.definedNamesAmong forms) ∧
    store.size = 1 + calls.length ∧
    (∀ (index : Nat) (closure : Closure), calls[index]? = some closure →
      store.parent? (1 + index) = some closure.home ∧
      (∀ name ∈ closure.parameters, store.bindsLocally (1 + index) name = true) ∧
      ∀ name, store.bindsLocally (1 + index) name = true →
        name ∈ closure.parameters ∨ name ∈ closure.body.definedNames) ∧
    ∀ (closure : Closure) (operands : List Value) (operator : String) (caller : Machine) (frame : FrameId)
      (name : String), frame < caller.store.size →
        (Ending.store (applyWith (evaluateUntil cut fuel) (.closure closure) operands operator
          caller)).bindsLocally frame name = true →
            caller.store.bindsLocally frame name = true := by
  have made : Store.globalFrame < machine.store.size := by
    rw [pristine.size_eq]
    exact Nat.zero_lt_one
  have permitted : ∀ form ∈ forms, Permits 1 (GlobalNames machine.store forms) [] form
      Store.globalFrame := by
    intro form member
    refine ⟨Nat.zero_lt_one, ?_⟩
    intro name defined
    exact Or.inr (Expr.mem_definedNamesAmong member defined)
  have accounted := evaluateFormsBy_tracks (evaluateUntil_tracks cut fuel) Store.globalFrame forms 0
    (.list []) machine [] (pristine.accounted forms) permitted
  have grown : machine.store.Extends store := by
    rw [← passed]
    exact (Discipline.evaluateFormsUntil_allows existence_lawful cut fuel
      (existence_safe_iff.mpr pristine.wellFormed) fun form _ => made).keeps.grown
  rw [← evaluateFormsUntil, passed, ← callsOfForms, called, List.nil_append] at accounted
  refine ⟨grown.keeps_names Store.globalFrame, accounted.foreseen Store.globalFrame, accounted.size_eq,
    ?_, fun closure operands operator caller frame name =>
      bindsLocally_of_call cut fuel closure operands operator caller⟩
  intro index closure found
  obtain ⟨inside, bound⟩ := accounted.owned index closure found
  refine ⟨inside, bound, ?_⟩
  intro name binds
  have foreseen := accounted.foreseen (1 + index) name binds
  rw [Foreseen, if_neg (by omega), Nat.add_sub_cancel_left, found] at foreseen
  obtain ⟨owner, same, among⟩ := foreseen
  cases same
  exact among

/-- A procedure that defines a name and calls another, whose operand defines one more. The call that fails in the
    middle leaves both frames, and the global frame has gained the names of the two procedures only. -/
theorem frame_names_foreseen_local :
    let inner : Expr := .list [.symbol "lambda", .list [.symbol "y"], .symbol "missing"]
    let outer : Expr := .list [.symbol "lambda", .list [.symbol "x"],
      .list [.symbol "begin", .list [.symbol "define", .symbol "z", .number 1],
        .list [.symbol "g", .list [.symbol "define", .symbol "w", .number 2]]]]
    let forms : List Expr := [.list [.symbol "define", .symbol "g", inner],
      .list [.symbol "define", .symbol "f", outer], .list [.symbol "f", .number 3]]
    let store := Ending.store (evaluateForms 9 forms Store.globalFrame (.ofStore .fresh))
    Store.fresh.Pristine ∧ store.size = 3 ∧
      store.bindsLocally 1 "z" = true ∧ store.bindsLocally 1 "w" = true ∧
      store.bindsLocally Store.globalFrame "z" = false ∧ store.bindsLocally 2 "w" = false := by
  intro inner outer forms store
  have whole : Ending.store (evaluateFormsUntil Cut.never 9 forms Store.globalFrame
      (.ofStore .fresh)) = store := by
    rw [evaluateFormsUntil_never]
  have pristine : (Machine.ofStore .fresh).store.Pristine := Store.pristine_fresh
  obtain ⟨_, globalNames, size, frames, _⟩ :=
    frame_names_foreseen Cut.never 9 forms pristine whole rfl
  refine ⟨pristine, by decide, by decide, by decide, ?_, ?_⟩
  · rw [Bool.eq_false_iff]
    intro bound
    have foretold := globalNames "z" bound
    revert foretold
    decide
  · rw [Bool.eq_false_iff]
    intro bound
    have foretold := (frames 1 _ rfl).2.2 "w" bound
    revert foretold
    decide

end LexLisp
