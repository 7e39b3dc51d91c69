/-
Module: LexLisp.Proofs.WellFormed
Purpose: Well-formed stores. Every parent was made before its child, and every closure in a frame captures a
  frame that exists. Evaluation keeps stores well-formed: the discipline that admits everything in every
  existing frame is lawful. The stores at the start of a run are well-formed and have one outermost frame.
Main exports: Store.Knows, Store.WellFormed, Store.Rooted, existence, evaluate_sound, Store.defineAll,
  Store.wellFormed_withBindings, Store.wellFormed_ensurePrimitives
-/
import LexLisp.Proofs.Discipline

namespace LexLisp

namespace Store

/-- The frame of a closure exists, and its identity was given out. -/
def Knows (store : Store) (closure : Closure) : Prop :=
  closure.home < store.size ∧ closure.identity < store.closures

/-- Parents are earlier than their children, and all closures in frames are known. -/
structure WellFormed (store : Store) : Prop where
  ordered : store.ParentsEarlier
  known : ∀ frame name value, store.local? frame name = some value → value.Each store.Knows

/-- The first frame made is the one frame without a parent. -/
structure Rooted (store : Store) : Prop where
  made : globalFrame < store.size
  outermost : store.parent? globalFrame = none
  sole : ∀ frame, frame < store.size → store.parent? frame = none → frame = globalFrame

/-- A closure that is known stays known while the store grows. -/
theorem Knows.extends {before after : Store} (grown : before.Extends after) {closure : Closure}
    (known : before.Knows closure) : after.Knows closure :=
  ⟨Nat.lt_of_lt_of_le known.1 grown.size_le, Nat.lt_of_lt_of_le known.2 grown.closures_le⟩

/-- A store that grows keeps its one outermost frame, since new frames have parents. -/
theorem Rooted.extends {before after : Store} (rooted : before.Rooted)
    (grown : before.Extends after) : after.Rooted where
  made := Nat.lt_of_lt_of_le rooted.made grown.size_le
  outermost := by rw [grown.parent?_eq globalFrame rooted.made, rooted.outermost]
  sole frame made noParent := by
    rcases Nat.lt_or_ge frame before.size with old | new
    · rw [grown.parent?_eq frame old] at noParent
      exact rooted.sole frame old noParent
    · exact absurd noParent (grown.new_inside frame new made)

/-- The last frame of every chain is the one outermost frame. -/
theorem Rooted.global_eq {store : Store} (rooted : store.Rooted) (ordered : store.ParentsEarlier)
    (frame : FrameId) (made : frame < store.size) : store.global frame = globalFrame := by
  obtain ⟨rootMade, outermost⟩ := outermost_global ordered made
  exact rooted.sole _ rootMade outermost

/-- Every way outwards comes to the one outermost frame. -/
theorem Rooted.mem_path {store : Store} (rooted : store.Rooted) {frame : FrameId} {links : List FrameId}
    (path : store.Path frame links) : globalFrame ∈ links := by
  induction path with
  | last made outermost => exact List.mem_singleton.mpr (rooted.sole _ made outermost).symm
  | next _ _ inductionHypothesis => exact List.mem_cons_of_mem _ inductionHypothesis

/-- A frame is one deeper than its parent. -/
theorem depth_of_parent {store : Store} (ordered : store.ParentsEarlier) {frame parent : FrameId}
    (link : store.parent? frame = some parent) : store.depth frame = store.depth parent + 1 := by
  simp only [depth, chain_of_parent ordered link, List.length_cons]

end Store

/-!
### The discipline of existence
-/

/-- Anything may be evaluated in a frame that exists, and every closure must be known. -/
def existence : Discipline where
  start := 0
  watches _ := True
  admits store _ frame := frame < store.size
  trusts := Store.Knows
  misses _ _ := True

/-- Safe for this discipline are just the well-formed stores. -/
theorem existence_safe_iff {store : Store} : existence.Safe store ↔ store.WellFormed := by
  constructor
  · intro safe
    exact ⟨safe.ordered, fun frame name value found => safe.trusted frame name value trivial found⟩
  · intro wellFormed
    exact ⟨wellFormed.ordered, Nat.zero_le _, fun _ _ _ _ => trivial,
      fun frame name value _ found => wellFormed.known frame name value found, trivial⟩

/-- The discipline is lawful: whatever exists goes on existing, and new frames and closures exist when they are made.
    -/
theorem existence_lawful : existence.Lawful where
  watches_new _ _ := trivial
  admits_made made := ⟨made, trivial⟩
  trusts_home known := ⟨known.1, trivial⟩
  admits_extends _ grown made := Nat.lt_of_lt_of_le made grown.size_le
  trusts_extends _ grown known := known.extends grown
  admits_part _ made := made
  trusts_made _ _ made := ⟨made, Nat.lt_succ_self _⟩
  admits_body _ _ _ := by simp [existence]
  misses_variable _ _ _ _ := trivial
  misses_assignment _ _ _ _ := trivial

/-- What evaluation leaves is well-formed, and it lost nothing; so is the value, if there is one. -/
structure Sound {α : Type} (valid : Store → α → Prop) (before : Store) (ending : Ending α) : Prop where
  wellFormed : ending.store.WellFormed
  grown : before.Extends ending.store
  valid : ∀ value, ending.outcome = .ok value → valid ending.store value

/-- All closures in a value are known. -/
abbrev Store.KnowsAll (store : Store) (value : Value) : Prop := value.Each store.Knows

/-- What the discipline says of an ending, in terms of well-formed stores. -/
theorem Discipline.Allows.sound {before : Store} {ending : Ending Value}
    (allows : existence.Allows before (fun value store => value.Each (existence.trusts store)) ending) :
    Sound Store.KnowsAll before ending where
  wellFormed := existence_safe_iff.mp allows.keeps.safe
  grown := allows.keeps.grown
  valid _ yielded := allows.good_of_ok yielded

/-- An evaluation in a frame that exists is sound. -/
theorem evaluate_sound (fuel : Nat) (expression : Expr) {frame : FrameId} {machine : Machine}
    (wellFormed : machine.store.WellFormed) (made : frame < machine.store.size) :
    Sound Store.KnowsAll machine.store (evaluate fuel expression frame machine) :=
  (Discipline.evaluate_respects existence_lawful fuel expression frame machine
    (existence_safe_iff.mpr wellFormed) made).sound

/-- A call is sound if the callee and the operands hold known closures only. -/
theorem apply_sound (fuel : Nat) {callee : Value} {operands : List Value} (operator : String)
    {machine : Machine} (wellFormed : machine.store.WellFormed) (known : machine.store.KnowsAll callee)
    (each : ∀ operand ∈ operands, machine.store.KnowsAll operand) :
    Sound Store.KnowsAll machine.store (apply fuel callee operands operator machine) :=
  (Discipline.applyWith_allows existence_lawful (Discipline.evaluate_respects existence_lawful fuel)
    operator (existence_safe_iff.mpr wellFormed) known each).sound

/-- So are forms in order, also where one of them fails. -/
theorem evaluateForms_sound (fuel : Nat) (forms : List Expr) {frame : FrameId} {machine : Machine}
    (wellFormed : machine.store.WellFormed) (made : frame < machine.store.size) :
    Sound Store.KnowsAll machine.store (evaluateForms fuel forms frame machine) :=
  (Discipline.evaluateFormsFrom_allows existence_lawful fuel frame forms 0 (.list []) machine
    (existence_safe_iff.mpr wellFormed) (by simp) (fun _ _ => made)).sound

/-!
### Writes and the first stores
-/

namespace Store

/-- A store stays well-formed when a value of known closures is bound in a frame that exists. -/
theorem WellFormed.define {store : Store} (wellFormed : store.WellFormed) {frame : FrameId}
    (made : frame < store.size) (name : String) {value : Value} (known : store.KnowsAll value) :
    (store.define frame name value).WellFormed :=
  existence_safe_iff.mp
    (existence_lawful.keeps_define (existence_safe_iff.mpr wellFormed) made trivial name known trivial).safe

/-- A store stays well-formed when a call makes a frame inside one that exists. -/
theorem WellFormed.enter {store : Store} (wellFormed : store.WellFormed) {home : FrameId}
    (made : home < store.size) (names : List String) {values : List Value}
    (known : ∀ value ∈ values, store.KnowsAll value) :
    (store.enter home names values).2.WellFormed :=
  existence_safe_iff.mp
    (existence_lawful.keeps_enter (existence_safe_iff.mpr wellFormed) made trivial names known trivial).safe

/-- A store that went through definitions of values without unknown closures. -/
theorem WellFormed.foldl_define {item : Type} {frame : FrameId} {step : Store → item → Store}
    (defines : ∀ store entry, store.WellFormed → frame < store.size →
      (step store entry).WellFormed ∧ store.Extends (step store entry)) :
    ∀ (entries : List item) (store : Store), store.WellFormed → frame < store.size →
      (entries.foldl step store).WellFormed ∧ store.Extends (entries.foldl step store)
  | [], store, wellFormed, _ => ⟨wellFormed, .refl store⟩
  | entry :: entries, store, wellFormed, made => by
      obtain ⟨stepped, grown⟩ := defines store entry wellFormed made
      have later := Nat.lt_of_lt_of_le made grown.size_le
      obtain ⟨finished, grownLater⟩ :=
        foldl_define defines entries (step store entry) stepped later
      exact ⟨finished, grown.trans grownLater⟩

/-- To ensure the primitives only defines, and in the outermost frame. -/
theorem wellFormed_ensurePrimitives {store : Store} (wellFormed : store.WellFormed)
    {frame : FrameId} (made : store.global frame < store.size) :
    (store.ensurePrimitives frame).WellFormed ∧ store.Extends (store.ensurePrimitives frame) := by
  unfold ensurePrimitives
  apply WellFormed.foldl_define _ Primitive.all store wellFormed made
  intro store primitive wellFormed made
  split
  · exact ⟨wellFormed, .refl store⟩
  · exact ⟨wellFormed.define made _ (Value.each_primitive primitive), .define made _ _⟩

/-- To install the primitives only defines. -/
theorem wellFormed_installPrimitives {store : Store} (wellFormed : store.WellFormed)
    {frame : FrameId} (made : frame < store.size) :
    (store.installPrimitives frame).WellFormed ∧ store.Extends (store.installPrimitives frame) := by
  unfold installPrimitives
  apply WellFormed.foldl_define _ Primitive.all store wellFormed made
  intro store primitive wellFormed made
  exact ⟨wellFormed.define made _ (Value.each_primitive primitive), .define made _ _⟩

/-- The store of one empty frame is well-formed. -/
theorem wellFormed_bare : bare.WellFormed where
  ordered frame parent link := by
    cases frame with
    | zero => cases link
    | succ frame => cases link
  known frame name value found := by
    cases frame with
    | zero => cases found
    | succ frame => cases found

theorem rooted_bare : bare.Rooted where
  made := Nat.zero_lt_one
  outermost := rfl
  sole _ made _ := Nat.lt_one_iff.mp made

theorem wellFormed_fresh : fresh.WellFormed :=
  (wellFormed_installPrimitives wellFormed_bare rooted_bare.made).1

theorem rooted_fresh : fresh.Rooted :=
  rooted_bare.extends (wellFormed_installPrimitives wellFormed_bare rooted_bare.made).2

/-- The store with names bound in a frame one after another. -/
def defineAll (store : Store) (frame : FrameId) (entries : List (String × Value)) : Store :=
  entries.foldl (fun store entry => store.define frame entry.1 entry.2) store

/-- Definitions, one after another, lose nothing. -/
theorem Extends.defineAll {frame : FrameId} : ∀ (entries : List (String × Value)) {store : Store},
    frame < store.size → store.Extends (store.defineAll frame entries)
  | [], store, _ => .refl store
  | (name, value) :: entries, _, made =>
      (Extends.define made name value).trans (defineAll entries (by simpa using made))

/-- Definitions of values of known closures keep a store well-formed. -/
theorem WellFormed.defineAll {frame : FrameId} : ∀ (entries : List (String × Value)) {store : Store},
    store.WellFormed → frame < store.size → (∀ entry ∈ entries, store.KnowsAll entry.2) →
      (store.defineAll frame entries).WellFormed
  | [], _, wellFormed, _, _ => wellFormed
  | (name, value) :: entries, store, wellFormed, made, known => by
      obtain ⟨first, others⟩ := List.forall_mem_cons.mp known
      have still : ∀ entry ∈ entries, (store.define frame name value).KnowsAll entry.2 :=
        fun entry member => (others entry member).mono fun _ here => here.extends (.define made name value)
      exact defineAll entries (wellFormed.define made name first) (by simpa using made) still

/-- Data holds no closures. -/
theorem wellFormed_withBindings {entries : List (String × Value)}
    (data : ∀ entry ∈ entries, entry.2.Each fun _ => False) :
    (withBindings entries).WellFormed ∧ fresh.Extends (withBindings entries) := by
  have known : ∀ entry ∈ entries, fresh.KnowsAll entry.2 :=
    fun entry member => (data entry member).mono fun _ none => none.elim
  exact ⟨WellFormed.defineAll entries wellFormed_fresh rooted_fresh.made known,
    Extends.defineAll entries rooted_fresh.made⟩

end Store

end LexLisp
