/-
Module: LexLisp.Proofs.ClientRun
Purpose: Whole runs of a caller. A client holds frames and values that it was given, and asks for one thing
  after another: a new frame, a write, the primitives, an evaluation, a call, a program. It can only name
  what it holds, and it keeps what it holds when a request fails. Every store that such a run reaches is
  well-formed with one outermost frame, and no request loses a frame, a parent link or a bound name.
Main exports: Client, Client.Request, Client.perform, Client.Run, Client.Grounded, Client.Sound,
  Client.reachable_store_invariant
-/
import LexLisp.Proofs.WellFormed

namespace LexLisp

/-- What a caller holds: a machine, and the frames and values that it was given so far. -/
structure Client where
  machine : Machine
  frames : List FrameId
  values : List Value

/-- What a caller can ask for. The last three give it more to hold: what a name is bound to, the frame around
    a frame, and the frame that a closure captured. -/
inductive Client.Request where
  | extend (parent : FrameId) (names : List String) (values : List Value) (callee : String)
  | define (frame : FrameId) (name : String) (value : Value)
  | assign (frame : FrameId) (name : String) (value : Value)
  | ensurePrimitives (frame : FrameId)
  | evaluate (fuel : Nat) (expression : Expr) (frame : FrameId)
  | apply (fuel : Nat) (callee : Value) (operands : List Value) (operator : String)
  | run (fuel : Nat) (source text : String) (frame : FrameId)
  | lookup (frame : FrameId) (name : String)
  | parent (frame : FrameId)
  | home (closure : Closure)

namespace Client.Request

/-- The frames that a request names. -/
def frames : Request → List FrameId
  | .extend outer _ _ _ => [outer]
  | .define frame _ _ => [frame]
  | .assign frame _ _ => [frame]
  | .ensurePrimitives frame => [frame]
  | .evaluate _ _ frame => [frame]
  | .apply _ _ _ _ => []
  | .run _ _ _ frame => [frame]
  | .lookup frame _ => [frame]
  | .parent frame => [frame]
  | .home _ => []

/-- The values that a request hands over. -/
def values : Request → List Value
  | .extend _ _ values _ => values
  | .define _ _ value => [value]
  | .assign _ _ value => [value]
  | .apply _ callee operands _ => callee :: operands
  | .home closure => [.closure closure]
  | _ => []

end Client.Request

namespace Client

/-- The store of a client. -/
def store (client : Client) : Store := client.machine.store

/-- Every closure in a value is in one of the values that the client was given. Data needs no giving. -/
def Holds (client : Client) (value : Value) : Prop :=
  value.Each fun closure => ∃ held ∈ client.values, Value.Within (.closure closure) held

/-- A client can name only what it holds. -/
def Allows (client : Client) (request : Request) : Prop :=
  (∀ frame ∈ request.frames, frame ∈ client.frames) ∧ ∀ value ∈ request.values, client.Holds value

/-- The client with another store. -/
def withStore (client : Client) (store : Store) : Client :=
  { client with machine := { client.machine with store := store } }

/-- The client after an action, which may have failed. -/
def finish {failure : Type} (client : Client) : EStateM.Result failure Machine Value → Client
  | .ok value machine => { client with machine := machine, values := value :: client.values }
  | .error _ machine => { client with machine := machine }

/-- The client after a request, also after one that fails. -/
def perform (client : Client) : Request → Client
  | .extend parent names values callee =>
    match client.store.extend parent names values callee with
    | .ok (frame, store) => { client.withStore store with frames := frame :: client.frames }
    | .error _ => client
  | .define frame name value => client.withStore (client.store.define frame name value)
  | .assign frame name value =>
    match client.store.assign? frame name value with
    | some store => client.withStore store
    | none => client
  | .ensurePrimitives frame => client.withStore (client.store.ensurePrimitives frame)
  | .evaluate fuel expression frame => client.finish (LexLisp.evaluate fuel expression frame client.machine)
  | .apply fuel callee operands operator =>
    client.finish (LexLisp.apply fuel callee operands operator client.machine)
  | .run fuel source text frame => client.finish (runText fuel source text frame client.machine)
  | .lookup frame name =>
    match client.store.lookup? frame name with
    | some value => { client with values := value :: client.values }
    | none => client
  | .parent frame =>
    match client.store.parent? frame with
    | some parent => { client with frames := parent :: client.frames }
    | none => client
  | .home closure => { client with frames := closure.home :: client.frames }

/-- A client that holds the global frame of a new store, bare of everything but the primitives and data. -/
inductive Initial : Client → Prop where
  | fresh : Initial ⟨.ofStore .fresh, [Store.globalFrame], []⟩
  | withBindings (entries : List (String × Value))
      (data : ∀ entry ∈ entries, entry.2.Each fun _ => False) :
      Initial ⟨.ofStore (.withBindings entries), [Store.globalFrame], []⟩

/-- One client comes out of another by requests, each of which it could make. -/
inductive Run (start : Client) : Client → Prop where
  | here : Run start start
  | step {client : Client} {request : Request} (run : Run start client)
      (allowed : client.Allows request) : Run start (client.perform request)

/-!
### The invariant of a client
-/

/-- The store is well-formed, and all that the client holds exists. -/
structure Grounded (client : Client) : Prop where
  wellFormed : client.store.WellFormed
  frames_made : ∀ frame ∈ client.frames, frame < client.store.size
  values_known : ∀ value ∈ client.values, client.store.KnowsAll value

/-- The closures of a value that the client holds are known to the store. -/
theorem Grounded.knowsAll {client : Client} (grounded : client.Grounded) {value : Value}
    (held : client.Holds value) : client.store.KnowsAll value := by
  intro closure within
  obtain ⟨source, member, inside⟩ := held closure within
  exact grounded.values_known source member closure inside

/-- What a step leaves of the invariant is a matter of the store alone: handles stay good while it grows. -/
theorem Grounded.grow {client : Client} (grounded : client.Grounded) {machine : Machine}
    (wellFormed : machine.store.WellFormed) (grown : client.store.Extends machine.store) :
    Grounded { client with machine := machine } where
  wellFormed := wellFormed
  frames_made frame member := Nat.lt_of_lt_of_le (grounded.frames_made frame member) grown.size_le
  values_known value member :=
    (grounded.values_known value member).mono fun _ known => known.extends grown

/-- A frame that exists may be handed to the client. -/
theorem Grounded.addFrame {client : Client} (grounded : client.Grounded) {frame : FrameId}
    (made : frame < client.store.size) : Grounded { client with frames := frame :: client.frames } where
  wellFormed := grounded.wellFormed
  frames_made := List.forall_mem_cons.mpr ⟨made, grounded.frames_made⟩
  values_known := grounded.values_known

/-- So may a value of known closures. -/
theorem Grounded.addValue {client : Client} (grounded : client.Grounded) {value : Value}
    (known : client.store.KnowsAll value) :
    Grounded { client with values := value :: client.values } where
  wellFormed := grounded.wellFormed
  frames_made := grounded.frames_made
  values_known := List.forall_mem_cons.mpr ⟨known, grounded.values_known⟩

/-- A request keeps the invariant and loses nothing. -/
def Keeps (before after : Client) : Prop :=
  after.Grounded ∧ before.store.Extends after.store

theorem Grounded.keeps_refl {client : Client} (grounded : client.Grounded) : Keeps client client :=
  ⟨grounded, .refl _⟩

theorem Grounded.keeps_withStore {client : Client} (grounded : client.Grounded) {store : Store}
    (wellFormed : store.WellFormed) (grown : client.store.Extends store) :
    Keeps client (client.withStore store) :=
  ⟨grounded.grow wellFormed grown, grown⟩

/-- An action that is sound keeps the invariant, and its value may be handed to the client. -/
theorem Grounded.keeps_finish {client : Client} (grounded : client.Grounded) {ending : Ending Value}
    (ended : LexLisp.Sound Store.KnowsAll client.store ending) :
    Keeps client (client.finish ending) := by
  have grownClient := grounded.grow ended.wellFormed ended.grown
  cases ending with
  | ok value machine => exact ⟨grownClient.addValue (ended.valid value rfl), ended.grown⟩
  | error stop machine => exact ⟨grownClient, ended.grown⟩

/-- A program text either is not read, and then nothing happens, or its forms are evaluated. -/
theorem finish_runText_cases (client : Client) (fuel : Nat) (source text : String) (frame : FrameId) :
    client.finish (runText fuel source text frame client.machine) = client ∨
      ∃ forms, client.finish (runText fuel source text frame client.machine) =
        client.finish (evaluateForms fuel forms frame client.machine) := by
  unfold runText
  cases read source text with
  | error error => exact .inl rfl
  | ok forms =>
      refine .inr ⟨forms, ?_⟩
      simp only [runForms, Run.ofEval, EStateM.adaptExcept]
      cases evaluateForms fuel forms frame client.machine with
      | ok value machine => rfl
      | error stop machine => rfl

/-- A program keeps the invariant, whether or not it is read. -/
theorem Grounded.keeps_run {client : Client} (grounded : client.Grounded) (fuel : Nat) (source text : String)
    {frame : FrameId} (made : frame < client.store.size) :
    Keeps client (client.finish (runText fuel source text frame client.machine)) := by
  rcases client.finish_runText_cases fuel source text frame with same | ⟨forms, same⟩
  · rw [same]
    exact grounded.keeps_refl
  · rw [same]
    exact grounded.keeps_finish (evaluateForms_sound fuel forms grounded.wellFormed made)

/-- What one request does, whether it succeeds or fails. -/
theorem Grounded.perform {client : Client} (grounded : client.Grounded) {request : Request}
    (allowed : client.Allows request) : Keeps client (client.perform request) := by
  obtain ⟨frames, values⟩ := allowed
  have known : ∀ value ∈ request.values, client.store.KnowsAll value :=
    fun value member => grounded.knowsAll (values value member)
  have made : ∀ frame ∈ request.frames, frame < client.store.size :=
    fun frame member => grounded.frames_made frame (frames frame member)
  cases request with
  | extend parent names operands callee =>
      have parentMade := made parent List.mem_cons_self
      by_cases counts : names.length = operands.length
      · have grown := Store.Extends.enter client.store parent names operands
        have entered := grounded.keeps_withStore (grounded.wellFormed.enter parentMade names known) grown
        simp only [Client.perform, Store.extend, checkCounts, counts, if_true]
        exact ⟨entered.1.addFrame (Store.size_enter .. ▸ Nat.lt_succ_self _), entered.2⟩
      · simp only [Client.perform, Store.extend, checkCounts, counts, if_false]
        exact grounded.keeps_refl
  | define frame name value =>
      have frameMade := made frame List.mem_cons_self
      have valueKnown := known value List.mem_cons_self
      exact grounded.keeps_withStore (grounded.wellFormed.define frameMade name valueKnown)
        (.define frameMade name value)
  | assign frame name value =>
      have valueKnown := known value List.mem_cons_self
      simp only [Client.perform, Store.assign?]
      cases found : client.store.nearest? frame name with
      | none => exact grounded.keeps_refl
      | some link =>
          obtain ⟨_, bound⟩ := Store.mem_chain_of_nearest? found
          obtain ⟨old, oldBound⟩ := Option.isSome_iff_exists.mp bound
          have linkMade := Store.lt_size_of_local? oldBound
          exact grounded.keeps_withStore (grounded.wellFormed.define linkMade name valueKnown)
            (.define linkMade name value)
  | ensurePrimitives frame =>
      have frameMade := made frame List.mem_cons_self
      have outermost := Store.outermost_global grounded.wellFormed.ordered frameMade
      have ensured := Store.wellFormed_ensurePrimitives grounded.wellFormed outermost.1
      exact grounded.keeps_withStore ensured.1 ensured.2
  | evaluate fuel expression frame =>
      have frameMade := made frame List.mem_cons_self
      exact grounded.keeps_finish (evaluate_sound fuel expression grounded.wellFormed frameMade)
  | apply fuel callee operands operator =>
      obtain ⟨calleeKnown, operandsKnown⟩ := List.forall_mem_cons.mp known
      exact grounded.keeps_finish (apply_sound fuel operator grounded.wellFormed calleeKnown operandsKnown)
  | run fuel source text frame =>
      exact grounded.keeps_run fuel source text (made frame List.mem_cons_self)
  | lookup frame name =>
      simp only [Client.perform]
      cases found : client.store.lookup? frame name with
      | none => exact grounded.keeps_refl
      | some value =>
          obtain ⟨link, _, bound⟩ := Store.exists_mem_chain_of_lookup? found
          exact ⟨grounded.addValue (grounded.wellFormed.known link name value bound), .refl _⟩
  | parent frame =>
      simp only [Client.perform]
      cases link : client.store.parent? frame with
      | none => exact grounded.keeps_refl
      | some parent =>
          have earlier := grounded.wellFormed.ordered frame parent link
          have parentMade := Nat.lt_trans earlier (made frame List.mem_cons_self)
          exact ⟨grounded.addFrame parentMade, .refl _⟩
  | home closure =>
      have closureKnown := (Value.each_closure closure).mp (known _ List.mem_cons_self)
      exact ⟨grounded.addFrame closureKnown.1, .refl _⟩

/-- The store is well-formed with one outermost frame, and all that the client holds exists. -/
structure Sound (client : Client) : Prop where
  wellFormed : client.store.WellFormed
  rooted : client.store.Rooted
  frames_made : ∀ frame ∈ client.frames, frame < client.store.size
  values_known : ∀ value ∈ client.values, client.store.KnowsAll value

theorem Sound.grounded {client : Client} (sound : client.Sound) : client.Grounded :=
  ⟨sound.wellFormed, sound.frames_made, sound.values_known⟩

theorem Sound.knowsAll {client : Client} (sound : client.Sound) {value : Value}
    (held : client.Holds value) : client.store.KnowsAll value :=
  sound.grounded.knowsAll held

/-- A store that grows by requests keeps its one outermost frame. -/
theorem Sound.perform {client : Client} (sound : client.Sound) {request : Request}
    (allowed : client.Allows request) :
    (client.perform request).Sound ∧ client.store.Extends (client.perform request).store := by
  obtain ⟨grounded, grown⟩ := sound.grounded.perform allowed
  exact ⟨⟨grounded.wellFormed, sound.rooted.extends grown, grounded.frames_made, grounded.values_known⟩, grown⟩

/-- At the start there is one outermost frame, and no closure at all. -/
theorem Initial.sound {client : Client} (initial : client.Initial) : client.Sound := by
  have single : ∀ {store : Store}, store.WellFormed → store.Rooted →
      Sound ⟨.ofStore store, [Store.globalFrame], []⟩ := by
    intro store wellFormed rooted
    refine ⟨wellFormed, rooted, ?_, fun value member => nomatch member⟩
    intro frame member
    rw [List.mem_singleton.mp member]
    exact rooted.made
  cases initial with
  | fresh => exact single Store.wellFormed_fresh Store.rooted_fresh
  | withBindings entries data =>
      obtain ⟨wellFormed, grown⟩ := Store.wellFormed_withBindings data
      exact single wellFormed (Store.rooted_fresh.extends grown)

/-- Every request keeps what holds of a client. -/
theorem Run.sound {start client : Client} (initial : start.Initial) (run : start.Run client) :
    client.Sound := by
  induction run with
  | here => exact initial.sound
  | step _ allowed inductionHypothesis => exact (inductionHypothesis.perform allowed).1

/-!
### What every run keeps
-/

/-- A value of a store: each closure in it captures an existing frame, and each primitive in it is one of the
    table. -/
def Genuine (store : Store) (value : Value) : Prop :=
  (∀ closure, Value.Within (.closure closure) value → closure.home < store.size) ∧
    ∀ primitive, Value.Within (.primitive primitive) value → primitive ∈ Primitive.all

theorem genuine_of_knowsAll {store : Store} {value : Value} (known : store.KnowsAll value) :
    Genuine store value := by
  refine ⟨fun closure within => (known closure within).1, ?_⟩
  intro primitive _
  cases primitive <;> decide

/-- After any requests: parents are earlier, every way outwards ends at the one global frame and is as long as
    its depth says; every closure in the store or in a value that was given captures an existing frame, and
    every primitive is one of the table; and no further request, whether it succeeds or fails, loses a
    frame, a parent link or a bound name. -/
theorem reachable_store_invariant {start client : Client} (initial : start.Initial)
    (run : start.Run client) :
    (∀ frame, frame < client.store.size →
      (∀ parent, client.store.parent? frame = some parent →
        parent < frame ∧ client.store.depth frame = client.store.depth parent + 1) ∧
      client.store.Path frame (client.store.chain frame) ∧
      client.store.global frame = Store.globalFrame) ∧
    (∀ frame name value, client.store.local? frame name = some value → Genuine client.store value) ∧
    (∀ value ∈ client.values, Genuine client.store value) ∧
    ∀ request, client.Allows request → client.store.Extends (client.perform request).store := by
  have sound := run.sound initial
  have ordered := sound.wellFormed.ordered
  refine ⟨?_, ?_, ?_, ?_⟩
  · intro frame made
    refine ⟨?_, Store.path_chain ordered frame made, sound.rooted.global_eq ordered frame made⟩
    intro parent link
    exact ⟨ordered frame parent link, Store.depth_of_parent ordered link⟩
  · intro frame name value found
    exact genuine_of_knowsAll (sound.wellFormed.known frame name value found)
  · intro value member
    exact genuine_of_knowsAll (sound.values_known value member)
  · intro request allowed
    exact (sound.perform allowed).2

/-- A run that opens a frame, makes a procedure in it and is given that procedure: the chain of the frame
    ends at the global frame, and the procedure captures the frame. -/
theorem reachable_store_invariant_escaping :
    let start : Client := ⟨.ofStore .fresh, [Store.globalFrame], []⟩
    let opened := start.perform (.extend Store.globalFrame ["x"] [.number 1] "f")
    let client := opened.perform
      (.evaluate 1 (.list [.symbol "lambda", .list [.symbol "y"], .symbol "x"]) 1)
    start.Run client ∧ client.values.length = 1 ∧ client.store.global 1 = Store.globalFrame ∧
      ∀ value ∈ client.values, Genuine client.store value := by
  intro start opened client
  have openedRun : start.Run opened := by
    refine .step .here ⟨by simp [Request.frames, start], ?_⟩
    simp [Request.values, Holds]
  have run : start.Run client := by
    refine .step openedRun ⟨?_, fun value member => nomatch member⟩
    intro frame member
    rw [List.mem_singleton.mp member]
    decide
  have invariant := reachable_store_invariant .fresh run
  exact ⟨run, rfl, (invariant.1 1 (by decide)).2.2, invariant.2.2.1⟩

end Client

end LexLisp
