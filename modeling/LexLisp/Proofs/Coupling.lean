/-
Module: LexLisp.Proofs.Coupling
Purpose: Variants run in step. Two stores with the same frames are coupled if every frame has a naming under which
  it binds akin values, and what a frame has in sight it binds itself or its parent has in sight too. In coupled
  stores variants of an expression take the same steps, make the same frames, and end alike.
Main exports: Comparison, Scopes, Scopes.Pairs, Coupled, Together, evaluate_keepsStep
-/
import LexLisp.Proofs.Chain
import LexLisp.Proofs.Outcome
import LexLisp.Proofs.Rename
import LexLisp.Proofs.Simulation
import LexLisp.Proofs.WellFormed

namespace LexLisp

/-!
### What is compared
-/

/-- How two runs are compared: under which namings, whether their texts must agree, and how many closures each
    store had made before. -/
structure Comparison where
  Region : Type
  naming : Region → Naming
  literal : Prop
  issued : Nat
  issued' : Nat

/-- Closures that both stores know from before are the same one, and those that the runs make correspond in the
    order in which they are made. -/
def Comparison.identities (comparison : Comparison) (left right : Nat) : Prop :=
  (left = right ∧ left < comparison.issued ∧ left < comparison.issued') ∨
    ∃ count, left = comparison.issued + count ∧ right = comparison.issued' + count

/-- The region of each frame that was made. -/
structure Scopes (comparison : Comparison) where
  made : Nat
  region : FrameId → comparison.Region

namespace Scopes

variable {comparison : Comparison}

/-- The naming of a frame is that of its region. -/
def naming (scopes : Scopes comparison) (frame : FrameId) : Naming :=
  comparison.naming (scopes.region frame)

/-- Later scopes keep the region of every frame. -/
structure Extends (small large : Scopes comparison) : Prop where
  made_le : small.made ≤ large.made
  region_eq : ∀ frame, frame < small.made → large.region frame = small.region frame

/-- A frame that was made keeps its naming. -/
theorem Extends.naming_eq {small large : Scopes comparison} (grown : small.Extends large) {frame : FrameId}
    (made : frame < small.made) : large.naming frame = small.naming frame := by
  rw [naming, naming, grown.region_eq frame made]

theorem Extends.refl (scopes : Scopes comparison) : scopes.Extends scopes :=
  ⟨Nat.le_refl _, fun _ _ => rfl⟩

/-- Scopes that grow twice have grown. -/
theorem Extends.trans {small middle large : Scopes comparison} (early : small.Extends middle)
    (late : middle.Extends large) : small.Extends large where
  made_le := Nat.le_trans early.made_le late.made_le
  region_eq frame made := by
    rw [late.region_eq frame (Nat.lt_of_lt_of_le made early.made_le), early.region_eq frame made]

/-- The scopes with one more frame. -/
def enter (scopes : Scopes comparison) (inner : comparison.Region) : Scopes comparison where
  made := scopes.made + 1
  region frame := if frame = scopes.made then inner else scopes.region frame

/-- A new frame leaves the scopes of the others. -/
theorem extends_enter (scopes : Scopes comparison) (inner : comparison.Region) :
    scopes.Extends (scopes.enter inner) :=
  ⟨Nat.le_succ _, fun _ made => if_neg (Nat.ne_of_lt made)⟩

theorem region_enter (scopes : Scopes comparison) (inner : comparison.Region) :
    (scopes.enter inner).region scopes.made = inner :=
  if_pos rfl

theorem naming_enter (scopes : Scopes comparison) (inner : comparison.Region) :
    (scopes.enter inner).naming scopes.made = comparison.naming inner := by
  rw [naming, region_enter]

/-- Two procedures that count as one: made in the same frame, with bodies that are variants inside it. -/
structure Pairs (scopes : Scopes comparison) (left right : Closure) : Prop where
  home_eq : left.home = right.home
  made : left.home < scopes.made
  identities : comparison.identities left.identity right.identity
  same : comparison.literal → left.parameters = right.parameters ∧ left.body = right.body
  variant : ∃ inner,
    (scopes.naming left.home).Opens left.parameters right.parameters (comparison.naming inner) ∧
      Variant comparison.naming inner left.body right.body

/-- Procedures that are paired stay paired while the scopes grow. -/
theorem Pairs.extends {small large : Scopes comparison} (grown : small.Extends large) {left right : Closure}
    (pairs : small.Pairs left right) : large.Pairs left right where
  home_eq := pairs.home_eq
  made := Nat.lt_of_lt_of_le pairs.made grown.made_le
  identities := pairs.identities
  same := pairs.same
  variant := by
    rw [grown.naming_eq pairs.made]
    exact pairs.variant

/-- The kinship of values in two stores with these scopes. -/
def kinship (scopes : Scopes comparison) : Kinship where
  literal := comparison.literal
  procedures := scopes.Pairs
  shown pairs literal := (pairs.same literal).1

/-- What is akin stays akin while the scopes grow. -/
theorem Extends.refines {small large : Scopes comparison} (grown : small.Extends large) :
    small.kinship.Refines large.kinship :=
  ⟨fun literal => literal, fun _ _ => Pairs.extends grown⟩

/-- Values that are akin with these scopes. -/
abbrev Akin (scopes : Scopes comparison) : Value → Value → Prop := LexLisp.Akin scopes.kinship

/-- Lists of values that are akin with these scopes. -/
abbrev AkinItems (scopes : Scopes comparison) : List Value → List Value → Prop :=
  LexLisp.AkinItems scopes.kinship

end Scopes

/-- Two stores with the same frames, each with its naming. What is in sight in a frame is bound there, or is in
    sight in its parent; so a search for two names that stand for one another finds akin values in one frame. -/
structure Coupled {comparison : Comparison} (scopes : Scopes comparison) (first second : Store) : Prop where
  size_first : first.size = scopes.made
  size_second : second.size = scopes.made
  parents : ∀ frame, first.parent? frame = second.parent? frame
  ordered : first.ParentsEarlier
  outwards : ∀ {frame parent name name'}, first.parent? frame = some parent →
    (scopes.naming frame).stands name name' →
      (first.local? frame name).isSome ∨ (scopes.naming parent).stands name name'
  bindings : ∀ {frame name name'}, frame < scopes.made → (scopes.naming frame).stands name name' →
    Option.Rel scopes.Akin (first.local? frame name) (second.local? frame name')
  counters : ∃ count, first.closures = comparison.issued + count ∧
    second.closures = comparison.issued' + count

/-!
### Searches
-/

/-- Stores with the same parent links have the same chains. -/
theorem Store.chain_congr {first second : Store} (sizes : first.size = second.size)
    (parents : ∀ frame, first.parent? frame = second.parent? frame) (ordered : first.ParentsEarlier)
    (ordered' : second.ParentsEarlier) {frame : FrameId} (made : frame < first.size) :
    second.chain frame = first.chain frame := by
  induction frame using Nat.strongRecOn with
  | ind frame inductionHypothesis =>
      cases link : first.parent? frame with
      | none => rw [chain_of_root made link, chain_of_root (sizes ▸ made) (parents frame ▸ link)]
      | some parent =>
          have earlier := ordered frame parent link
          rw [chain_of_parent ordered link, chain_of_parent ordered' (parents frame ▸ link),
            inductionHypothesis parent earlier (Nat.lt_trans earlier made)]

namespace Coupled

variable {comparison : Comparison} {scopes : Scopes comparison} {first second : Store}

/-- The parents are earlier in the second store too, since the links are the same. -/
theorem ordered_second (coupled : Coupled scopes first second) : second.ParentsEarlier :=
  fun frame parent link => coupled.ordered frame parent ((coupled.parents frame).trans link)

/-- The way outwards is the same in both stores. -/
theorem path (coupled : Coupled scopes first second) {frame : FrameId} (made : frame < scopes.made) :
    ∃ links, first.Path frame links ∧ first.chain frame = links ∧ second.chain frame = links := by
  rw [← coupled.size_first] at made
  refine ⟨first.chain frame, Store.path_chain coupled.ordered frame made, rfl, ?_⟩
  exact Store.chain_congr (coupled.size_first.trans coupled.size_second.symm) coupled.parents coupled.ordered
    coupled.ordered_second made

/-- A search for names that stand for one another fails in both stores, or ends in one frame, where they still
    stand for one another and are bound to akin values. -/
theorem search (coupled : Coupled scopes first second) {frame : FrameId} {name name' : String}
    (made : frame < scopes.made) (stands : (scopes.naming frame).stands name name') :
    ((first.nearest? frame name = none ∧ second.nearest? frame name' = none) ∧
      first.lookup? frame name = none ∧ second.lookup? frame name' = none) ∨
    ∃ link value value', (link < scopes.made ∧ (scopes.naming link).stands name name') ∧
      (first.nearest? frame name = some link ∧ second.nearest? frame name' = some link) ∧
        first.lookup? frame name = some value ∧ second.lookup? frame name' = some value' ∧
          scopes.Akin value value' := by
  obtain ⟨links, path, here, there⟩ := coupled.path made
  simp only [Store.nearest?, Store.lookup?, Store.bindsLocally, here, there]
  clear here there
  induction path with
  | last _ _ =>
      rcases Correspondence.rel_cases (coupled.bindings made stands) with
        ⟨unbound, unbound'⟩ | ⟨value, value', bound, bound', akin⟩
      · exact Or.inl (by simp [unbound, unbound'])
      · exact Or.inr ⟨_, value, value', ⟨made, stands⟩, by simp [bound, bound'], by simp [bound, bound', akin]⟩
  | next link _ inductionHypothesis =>
      rcases Correspondence.rel_cases (coupled.bindings made stands) with
        ⟨unbound, unbound'⟩ | ⟨value, value', bound, bound', akin⟩
      · have outside := (coupled.outwards link stands).resolve_left (by simp [unbound])
        have earlier := Nat.lt_trans (coupled.ordered _ _ link) made
        simpa only [List.find?_cons, List.findSome?_cons, unbound, unbound', Option.isSome_none] using
          inductionHypothesis earlier outside
      · exact Or.inr ⟨_, value, value', ⟨made, stands⟩, by simp [bound, bound'], by simp [bound, bound', akin]⟩

/-!
### Steps of two stores at once
-/

/-- Akin values may be bound on both sides, under names that stand for each other in the frame. -/
theorem define (coupled : Coupled scopes first second) {frame : FrameId}
    (made : frame < scopes.made) {name name' : String} (inStep : (scopes.naming frame).InStep name name')
    {value value' : Value} (akin : scopes.Akin value value') :
    Coupled scopes (first.define frame name value) (second.define frame name' value') where
  size_first := by rw [Store.size_define, coupled.size_first]
  size_second := by rw [Store.size_define, coupled.size_second]
  parents other := by simpa using coupled.parents other
  ordered := coupled.ordered.define frame name value
  outwards {other parent wanted wanted'} link stands := by
    rw [Store.parent?_define] at link
    rw [Store.local?_define (coupled.size_first ▸ made)]
    split
    · exact Or.inl rfl
    · exact coupled.outwards link stands
  bindings {other wanted wanted'} otherMade stands := by
    rw [Store.local?_define (coupled.size_first ▸ made), Store.local?_define (coupled.size_second ▸ made)]
    by_cases here : other = frame
    · subst here
      have together := inStep wanted wanted' stands
      by_cases written : wanted = name
      · rw [if_pos ⟨rfl, written⟩, if_pos ⟨rfl, together.mp written⟩]
        exact .some akin
      · rw [if_neg fun both => written both.2, if_neg fun both => written (together.mpr both.2)]
        exact coupled.bindings otherMade stands
    · rw [if_neg fun both => here both.1, if_neg fun both => here both.1]
      exact coupled.bindings otherMade stands
  counters := coupled.counters

/-- Akin operands are bound in step. -/
theorem get?_insertAll_akin {kinship : Kinship} {naming : Naming} {wanted wanted' : String}
    (stands : naming.stands wanted wanted') {names names' : List String}
    (inStep : List.Forall₂ naming.InStep names names') :
    ∀ {values values' : List Value} {bindings bindings' : Bindings},
      AkinItems kinship values values' →
      Option.Rel (Akin kinship) (bindings.get? wanted) (bindings'.get? wanted') →
        Option.Rel (Akin kinship) ((bindings.insertAll (names.zip values)).get? wanted)
          ((bindings'.insertAll (names'.zip values')).get? wanted') := by
  induction inStep with
  | nil => exact fun _ before => before
  | @cons name name' names names' here _ inductionHypothesis =>
      intro values values' bindings bindings' akin before
      cases akin with
      | nil => exact before
      | cons first rest =>
          apply inductionHypothesis rest
          rw [Bindings.get?_insert, Bindings.get?_insert]
          have together := here wanted wanted' stands
          by_cases written : wanted = name
          · rw [if_pos written, if_pos (together.mp written)]
            exact .some first
          · rw [if_neg written, if_neg fun same => written (together.mpr same)]
            exact before

/-- Calls on both sides make coupled frames, whose naming is that of the region inside. -/
theorem enter (coupled : Coupled scopes first second) {home : FrameId}
    (made : home < scopes.made) {names names' : List String} {inner : comparison.Region}
    (opens : (scopes.naming home).Opens names names' (comparison.naming inner)) {values values' : List Value}
    (akin : scopes.AkinItems values values') (counts : names.length = values.length) :
    Coupled (scopes.enter inner) (first.enter home names values).2
      (second.enter home names' values').2 where
  size_first := by rw [Store.size_enter, coupled.size_first]; rfl
  size_second := by rw [Store.size_enter, coupled.size_second]; rfl
  parents frame := by
    rw [Store.parent?_enter, Store.parent?_enter, coupled.size_first, coupled.size_second, coupled.parents]
  ordered := coupled.ordered.enter (coupled.size_first ▸ made) names values
  outwards {frame parent name name'} link stands := by
    rw [Store.parent?_enter, coupled.size_first] at link
    by_cases new : frame = scopes.made
    · subst new
      rw [if_pos rfl] at link
      cases link
      rw [scopes.naming_enter] at stands
      rw [(scopes.extends_enter inner).naming_eq made]
      rcases opens.inSight name name' stands with parameter | outside
      · have bound : (first.enter home names values).2.bindsLocally first.size name = true :=
          Store.bindsLocally_enter counts parameter
        rw [coupled.size_first] at bound
        exact Or.inl bound
      · exact Or.inr outside
    · rw [if_neg new] at link
      have old := Store.lt_size_of_parent? link
      rw [coupled.size_first] at old
      have earlier := Nat.lt_trans (coupled.ordered _ _ link) old
      rw [(scopes.extends_enter inner).naming_eq old] at stands
      rw [(scopes.extends_enter inner).naming_eq earlier, Store.local?,
        Store.frame?_enter_of_lt (coupled.size_first ▸ old)]
      exact coupled.outwards link stands
  bindings {frame name name'} frameMade stands := by
    unfold Store.local?
    by_cases new : frame = scopes.made
    · subst new
      rw [scopes.naming_enter] at stands
      rw [Store.frame?_enter, Store.frame?_enter, if_pos coupled.size_first.symm,
        if_pos coupled.size_second.symm]
      exact get?_insertAll_akin stands opens.inStep (akin.refine (scopes.extends_enter inner).refines) .none
    · have old : frame < scopes.made := Nat.lt_of_le_of_ne (Nat.le_of_lt_succ frameMade) new
      rw [(scopes.extends_enter inner).naming_eq old] at stands
      rw [Store.frame?_enter_of_lt (coupled.size_first ▸ old),
        Store.frame?_enter_of_lt (coupled.size_second ▸ old)]
      exact Correspondence.rel_mono (fun _ _ known => known.refine (scopes.extends_enter inner).refines)
        (coupled.bindings old stands)
  counters := coupled.counters

/-- A closure made on both sides leaves the stores coupled. -/
theorem close (coupled : Coupled scopes first second) :
    Coupled scopes { first with closures := first.closures + 1 }
      { second with closures := second.closures + 1 } where
  size_first := coupled.size_first
  size_second := coupled.size_second
  parents := coupled.parents
  ordered := coupled.ordered
  outwards := coupled.outwards
  bindings := coupled.bindings
  counters := by
    obtain ⟨count, here, there⟩ := coupled.counters
    exact ⟨count + 1, by rw [here, Nat.add_assoc], by rw [there, Nat.add_assoc]⟩

end Coupled

/-!
### Two endings
-/

/-- Stops of one kind: both for want of fuel, or for faults that agree. -/
def Kinship.Stops (kinship : Kinship) : Stop → Stop → Prop
  | .fault fault, .fault fault' => kinship.Faults fault fault'
  | .outOfFuel, .outOfFuel => True
  | _, _ => False

/-- Both sides stop for faults that agree, or both for the end of the fuel. -/
theorem Kinship.Stops.cases {kinship : Kinship} {stop stop' : Stop} (stops : kinship.Stops stop stop') :
    (∃ fault fault', stop = .fault fault ∧ stop' = .fault fault' ∧ kinship.Faults fault fault') ∨
      (stop = .outOfFuel ∧ stop' = .outOfFuel) := by
  cases stop with
  | fault fault =>
      cases stop' with
      | fault fault' => exact Or.inl ⟨fault, fault', rfl, rfl, stops⟩
      | outOfFuel => exact stops.elim
  | outOfFuel =>
      cases stop' with
      | fault fault' => exact stops.elim
      | outOfFuel => exact Or.inr ⟨rfl, rfl⟩

/-- Two endings that agree: both stop, for stops of one kind, or both yield what `good` relates; and the scopes
    have grown to couple the two stores. -/
def Together {α β : Type} {comparison : Comparison} (scopes : Scopes comparison)
    (good : Scopes comparison → α → β → Prop) : Ending α → Ending β → Prop
  | .ok left machine, .ok right machine' =>
    ∃ grown, scopes.Extends grown ∧ Coupled grown machine.store machine'.store ∧
      good grown left right
  | .error stop machine, .error stop' machine' => scopes.kinship.Stops stop stop' ∧
    ∃ grown, scopes.Extends grown ∧ Coupled grown machine.store machine'.store
  | _, _ => False

namespace Together

variable {α β α' β' : Type} {comparison : Comparison} {scopes : Scopes comparison} {machine machine' : Machine}
  {good : Scopes comparison → α → β → Prop}

/-- Endings that agree are of one kind. -/
theorem cases {ending : Ending α} {ending' : Ending β}
    (together : Together scopes good ending ending') :
    (∃ left right later later' grown, ending = .ok left later ∧ ending' = .ok right later' ∧
      scopes.Extends grown ∧ Coupled grown later.store later'.store ∧ good grown left right) ∨
    ∃ stop stop' later later' grown, ending = .error stop later ∧ ending' = .error stop' later' ∧
      scopes.kinship.Stops stop stop' ∧ scopes.Extends grown ∧
        Coupled grown later.store later'.store := by
  cases ending with
  | ok left later =>
      cases ending' with
      | ok right later' =>
          obtain ⟨grown, grows, coupled, related⟩ := together
          exact Or.inl ⟨left, right, later, later', grown, rfl, rfl, grows, coupled, related⟩
      | error stop' later' => exact together.elim
  | error stop later =>
      cases ending' with
      | ok right later' => exact together.elim
      | error stop' later' =>
          obtain ⟨stops, grown, grows, coupled⟩ := together
          exact Or.inr ⟨stop, stop', later, later', grown, rfl, rfl, stops, grows, coupled⟩

/-- What ends together later ends together from the start, if the scopes have grown up to there. -/
theorem after {grown : Scopes comparison} {ending : Ending α} {ending' : Ending β} (early : scopes.Extends grown)
    (late : Together grown good ending ending') :
    Together scopes good ending ending' := by
  rcases late.cases with ⟨left, right, later, later', larger, rfl, rfl, grows, coupled, related⟩ |
    ⟨stop, stop', later, later', larger, rfl, rfl, stops, grows, coupled⟩
  · exact ⟨larger, early.trans grows, coupled, related⟩
  · exact ⟨stops, larger, early.trans grows, coupled⟩

/-- Two pairs of actions in sequence. -/
theorem bind {middle : Scopes comparison → α' → β' → Prop} {action : Eval α'} {action' : Eval β'}
    {next : α' → Eval α} {next' : β' → Eval β}
    (early : Together scopes middle (action machine) (action' machine'))
    (late : ∀ grown left right later later', scopes.Extends grown →
      Coupled grown later.store later'.store → middle grown left right →
        Together grown good (next left later) (next' right later')) :
    Together scopes good ((action >>= next) machine) ((action' >>= next') machine') := by
  rcases early.cases with ⟨left, right, later, later', grown, ending, ending', grows, coupled, related⟩ |
    ⟨stop, stop', later, later', grown, ending, ending', stops, grows, coupled⟩
  · rw [Eval.bind_ok ending, Eval.bind_ok ending']
    exact (late grown left right later later' grows coupled related).after grows
  · rw [Eval.bind_error ending, Eval.bind_error ending']
    exact ⟨stops, grown, grows, coupled⟩

/-- Two actions that both yield end together if the stores are coupled and the values are related. -/
theorem ok (coupled : Coupled scopes machine.store machine'.store) {left : α} {right : β}
    (related : good scopes left right) :
    Together scopes good (.ok left machine) (.ok right machine') :=
  ⟨scopes, .refl _, coupled, related⟩

/-- Two actions that both fail end together if the stores are coupled and the faults agree. -/
theorem fault (coupled : Coupled scopes machine.store machine'.store) {fault fault' : Fault}
    (faults : scopes.kinship.Faults fault fault') :
    Together scopes good (.error (.fault fault) machine : Ending α)
      (.error (.fault fault') machine' : Ending β) :=
  ⟨faults, scopes, .refl _, coupled⟩

/-- Events in the two logs leave the stores alone; they need not agree. -/
theorem record {event event' : Event} {next : Unit → Eval α} {next' : Unit → Eval β}
    (rest : ∀ logged logged' : Machine, logged.store = machine.store → logged'.store = machine'.store →
      Together scopes good (next () logged) (next' () logged')) :
    Together scopes good ((Eval.record event >>= next) machine)
      ((Eval.record event' >>= next') machine') :=
  rest { machine with log := machine.log.push event } { machine' with log := machine'.log.push event' } rfl rfl

end Together

/-- An evaluator that keeps variants in step. -/
def KeepsStep (comparison : Comparison) (inner : Evaluator) : Prop :=
  ∀ (scopes : Scopes comparison) (expression expression' : Expr) (frame : FrameId) (machine machine' : Machine),
    Coupled scopes machine.store machine'.store → frame < scopes.made →
      Variant comparison.naming (scopes.region frame) expression expression' →
        (comparison.literal → expression = expression') →
          Together scopes Scopes.Akin (inner expression frame machine)
            (inner expression' frame machine')

/-!
### Steps of evaluation
-/

section Steps

variable {comparison : Comparison} {inner : Evaluator} {scopes : Scopes comparison} {frame : FrameId}
  {machine machine' : Machine}

/-- Names that stand for each other are found together, with akin values, or missed together. -/
theorem lookup_together {missing : String → Fault}
    (sameKind : ∀ name name', (missing name).kind = (missing name').kind) {name name' : String}
    (coupled : Coupled scopes machine.store machine'.store) (made : frame < scopes.made)
    (stands : (scopes.naming frame).stands name name') (same : comparison.literal → name = name') :
    Together scopes Scopes.Akin (Eval.lookup missing frame name machine)
      (Eval.lookup missing frame name' machine') := by
  rcases coupled.search made stands with ⟨_, here, there⟩ | ⟨_, value, value', _, _, here, there, akin⟩
  · rw [Eval.lookup_none here, Eval.lookup_none there]
    exact .fault coupled ⟨sameKind name name', fun literal => by rw [same literal]⟩
  · rw [Eval.lookup_some here, Eval.lookup_some there]
    exact .ok coupled akin

/-- A symbol and its variant are one tag, or are looked up together. -/
theorem evaluateSymbol_together {missing : String → Fault}
    (sameKind : ∀ name name', (missing name).kind = (missing name').kind) {name name' : String}
    (coupled : Coupled scopes machine.store machine'.store) (made : frame < scopes.made)
    (variant : Variant comparison.naming (scopes.region frame) (.symbol name) (.symbol name'))
    (same : comparison.literal → name = name') :
    Together scopes Scopes.Akin (evaluateSymbol missing name frame machine)
      (evaluateSymbol missing name' frame machine') := by
  unfold evaluateSymbol
  cases variant with
  | tag isTag isTag' =>
      rw [isTag, isTag']
      exact .ok coupled (.boolean _)
  | «variable» plain plain' stands =>
      rw [plain, plain']
      exact lookup_together sameKind coupled made stands same

/-- Operands and their variants end together, one after another. -/
theorem evaluateOperands_together (keeps : KeepsStep comparison inner) :
    ∀ {operands operands' : List Expr} {scopes : Scopes comparison} {machine machine' : Machine},
      Coupled scopes machine.store machine'.store → frame < scopes.made →
        Variants comparison.naming (scopes.region frame) operands operands' →
          (comparison.literal → operands = operands') →
            Together scopes Scopes.AkinItems (evaluateOperands inner frame operands machine)
              (evaluateOperands inner frame operands' machine')
  | [], _, _, _, _, coupled, _, .nil, _ => .ok coupled .nil
  | operand :: operands, _, scopes, machine, machine', coupled, made, .cons here later, same => by
      have parts := fun literal => List.cons.inj (same literal)
      unfold evaluateOperands
      apply Together.bind (keeps _ _ _ _ _ _ coupled made here fun literal => (parts literal).1)
      intro grown value value' next next' grows coupled akin
      have still := Nat.lt_of_lt_of_le made grows.made_le
      rw [← grows.region_eq frame made] at later
      apply Together.bind
        (evaluateOperands_together keeps coupled still later fun literal => (parts literal).2)
      intro larger values values' last last' growsMore coupled akinRest
      exact .ok coupled (.cons (akin.refine growsMore.refines) akinRest)

/-- So do the expressions of a sequence. -/
theorem evaluateSequence_together (keeps : KeepsStep comparison inner) :
    ∀ {rest rest' : List Expr} {first first' : Expr} {scopes : Scopes comparison} {machine machine' : Machine},
      Coupled scopes machine.store machine'.store → frame < scopes.made →
        Variant comparison.naming (scopes.region frame) first first' →
          Variants comparison.naming (scopes.region frame) rest rest' →
            (comparison.literal → first = first' ∧ rest = rest') →
              Together scopes Scopes.Akin (evaluateSequence inner frame first rest machine)
                (evaluateSequence inner frame first' rest' machine')
  | [], _, _, _, _, _, _, coupled, made, here, .nil, same =>
      keeps _ _ _ _ _ _ coupled made here fun literal => (same literal).1
  | next :: rest, _, _, _, scopes, machine, machine', coupled, made, here, .cons following later, same => by
      unfold evaluateSequence
      apply Together.bind (keeps _ _ _ _ _ _ coupled made here fun literal => (same literal).1)
      intro grown _ _ _ _ grows coupled _
      have still := Nat.lt_of_lt_of_le made grows.made_le
      rw [← grows.region_eq frame made] at following later
      exact evaluateSequence_together keeps coupled still following later fun literal =>
        List.cons.inj (same literal).2

/-- Calls of akin values with akin operands end together: paired procedures open coupled frames and have bodies that
    are variants in them. -/
theorem applyWith_together (keeps : KeepsStep comparison inner) {callee callee' : Value}
    {operands operands' : List Value} {operator operator' : String}
    (coupled : Coupled scopes machine.store machine'.store)
    (akin : scopes.Akin callee callee')
    (akinOperands : scopes.AkinItems operands operands')
    (same : comparison.literal → operator = operator') :
    Together scopes Scopes.Akin (applyWith inner callee operands operator machine)
      (applyWith inner callee' operands' operator' machine') := by
  unfold applyWith
  apply Together.record
  intro logged logged' sameStore sameStore'
  rw [← sameStore, ← sameStore'] at coupled
  have reported := fun literal => akin.text_eq literal
  cases akin with
  | primitive primitive =>
      dsimp only
      rcases (primitive.call_akin akinOperands).cases with
        ⟨value, value', here, there, akin⟩ | ⟨fault, fault', here, there, faults⟩
      · rw [here, there]
        exact .ok coupled akin
      · rw [here, there]
        exact .fault coupled faults
  | @closure procedure procedure' pairs =>
      obtain ⟨body, opens, variant⟩ := pairs.variant
      have sameCount := akinOperands.length_eq
      have sameParameters := opens.length_eq
      dsimp only
      rw [← pairs.home_eq]
      by_cases counts : procedure.parameters.length = operands.length
      · rw [Eval.bind_ok (Eval.enter_of_counts counts),
          Eval.bind_ok (Eval.enter_of_counts (by omega))]
        have entered := coupled.enter pairs.made opens akinOperands counts
        have here : logged.store.frames.size = scopes.made := coupled.size_first
        have there : logged'.store.frames.size = scopes.made := coupled.size_second
        rw [here, there]
        rw [← scopes.region_enter body] at variant
        exact (keeps _ _ _ _ _ _ entered (Nat.lt_succ_self _) variant fun literal =>
          (pairs.same literal).2).after (scopes.extends_enter body)
      · rw [Eval.bind_error (Eval.enter_of_counts_ne counts),
          Eval.bind_error (Eval.enter_of_counts_ne (by omega))]
        refine .fault coupled ⟨rfl, fun literal => ?_⟩
        rw [same literal, sameCount, sameParameters]
  | number | symbol | boolean | list =>
      exact .fault coupled ⟨rfl, fun literal => by rw [reported literal]⟩

/-- Heads that are variants come to akin callees. -/
theorem evaluateOperator_together (keeps : KeepsStep comparison inner) {head head' : Expr}
    (coupled : Coupled scopes machine.store machine'.store) (made : frame < scopes.made)
    (variant : Variant comparison.naming (scopes.region frame) head head')
    (same : comparison.literal → head = head') :
    Together scopes Scopes.Akin (evaluateOperator inner head frame machine)
      (evaluateOperator inner head' frame machine') := by
  have atHead : Together scopes Scopes.Akin (evaluateHead inner head frame machine)
      (evaluateHead inner head' frame machine') := by
    have inside := keeps _ _ _ _ _ _ coupled made variant same
    cases variant with
    | tag isTag isTag' =>
        exact evaluateSymbol_together (fun _ _ => rfl) coupled made (.tag isTag isTag')
          fun literal => Expr.symbol.inj (same literal)
    | «variable» plain plain' stands =>
        exact evaluateSymbol_together (fun _ _ => rfl) coupled made (.variable plain plain' stands)
          fun literal => Expr.symbol.inj (same literal)
    | number | empty | form | application => exact inside
  unfold evaluateOperator
  apply Together.bind atHead
  intro grown callee callee' later later' _ coupled akin
  rw [akin.isCallable_eq]
  split
  · exact .ok coupled akin
  · exact .fault coupled ⟨rfl, fun literal => by rw [same literal]⟩

/-- Procedures made of variants are paired. -/
theorem close_together {names names' : List String} {body body' : Expr} {inside : comparison.Region}
    (coupled : Coupled scopes machine.store machine'.store) (made : frame < scopes.made)
    (opens : (scopes.naming frame).Opens names names' (comparison.naming inside))
    (variant : Variant comparison.naming inside body body')
    (same : comparison.literal → names = names' ∧ body = body') :
    Together scopes Scopes.Akin (Eval.close names body frame machine)
      (Eval.close names' body' frame machine') := by
  rw [Eval.close_apply, Eval.close_apply]
  refine ⟨scopes, .refl _, coupled.close, .closure ⟨rfl, made, Or.inr coupled.counters, same, ?_⟩⟩
  exact ⟨inside, opens, variant⟩

/-- A special form and its variant end together, form by form. -/
theorem evaluate_form_together (keeps : KeepsStep comparison inner) {form form' : Form}
    (coupled : Coupled scopes machine.store machine'.store) (made : frame < scopes.made)
    (variant : FormVariant comparison.naming (scopes.region frame) form form')
    (same : comparison.literal → form = form') :
    Together scopes Scopes.Akin (form.evaluate inner frame machine)
      (form'.evaluate inner frame machine') := by
  cases variant with
  | quoted alike => exact .ok coupled (akin_ofDatum _ alike fun literal => Form.quoted.inj (same literal))
  | defined inStep value =>
      have parts := fun literal => Form.defined.inj (same literal)
      apply Together.bind (keeps _ _ _ _ _ _ coupled made value fun literal => (parts literal).2)
      intro grown value value' later later' grows coupled akin
      apply Together.record
      intro logged logged' sameStore sameStore'
      rw [← sameStore, ← sameStore'] at coupled
      rw [← grows.region_eq frame made] at inStep
      have defined := coupled.define (Nat.lt_of_lt_of_le made grows.made_le) inStep akin
      exact ⟨grown, .refl _, defined, .symbol fun literal => (parts literal).1⟩
  | assigned stands value =>
      have parts := fun literal => Form.assigned.inj (same literal)
      apply Together.bind (keeps _ _ _ _ _ _ coupled made value fun literal => (parts literal).2)
      intro grown value value' later later' grows coupled akin
      apply Together.record
      intro logged logged' sameStore sameStore'
      rw [← sameStore, ← sameStore'] at coupled
      rw [← grows.region_eq frame made] at stands
      have still := Nat.lt_of_lt_of_le made grows.made_le
      rcases coupled.search still stands with
        ⟨⟨here, there⟩, _⟩ | ⟨link, _, _, ⟨linkMade, standsThere⟩, ⟨here, there⟩, _⟩
      · rw [Eval.bind_error (Eval.assign_none here), Eval.bind_error (Eval.assign_none there)]
        exact .fault coupled ⟨rfl, fun literal => by rw [(parts literal).1]⟩
      · rw [Eval.bind_ok (Eval.assign_some here), Eval.bind_ok (Eval.assign_some there)]
        have assigned := coupled.define linkMade (Naming.inStep_of_stands standsThere) akin
        exact ⟨grown, .refl _, assigned, .symbol fun literal => (parts literal).1⟩
  | sequence here later =>
      exact evaluateSequence_together keeps coupled made here later fun literal =>
        Form.sequence.inj (same literal)
  | conditional test onTrue onFalse =>
      have parts := fun literal => Form.conditional.inj (same literal)
      apply Together.bind (keeps _ _ _ _ _ _ coupled made test fun literal => (parts literal).1)
      intro grown value value' later later' grows coupled akin
      have still := Nat.lt_of_lt_of_le made grows.made_le
      have described := fun literal => akin.described_eq literal
      rw [← grows.region_eq frame made] at onTrue onFalse
      cases akin with
      | boolean value =>
          cases value with
          | true => exact keeps _ _ _ _ _ _ coupled still onTrue fun literal => (parts literal).2.1
          | false => exact keeps _ _ _ _ _ _ coupled still onFalse fun literal => (parts literal).2.2
      | number | symbol | list | closure | primitive =>
          exact .fault coupled ⟨rfl, fun literal => by rw [described literal]⟩
  | procedure opens result =>
      exact close_together coupled made opens result fun literal => Form.procedure.inj (same literal)
  | refused alike =>
      exact .fault coupled ⟨alike, fun literal => Form.refused.inj (same literal)⟩

/-- One step of evaluation keeps step if what evaluates the parts does. -/
theorem evaluateWith_keepsStep (keeps : KeepsStep comparison inner) :
    KeepsStep comparison (evaluateWith inner) := by
  intro scopes expression expression' frame machine machine' coupled made variant same
  cases variant with
  | number => exact .ok coupled (.number _)
  | tag isTag isTag' =>
      exact evaluateSymbol_together (fun _ _ => rfl) coupled made (.tag isTag isTag')
        fun literal => Expr.symbol.inj (same literal)
  | «variable» plain plain' stands =>
      exact evaluateSymbol_together (fun _ _ => rfl) coupled made (.variable plain plain' stands)
        fun literal => Expr.symbol.inj (same literal)
  | empty => exact .fault coupled (.refl _)
  | form named named' does =>
      simp only [evaluateWith, named, named', evaluateForm_eq]
      apply evaluate_form_together keeps coupled made does
      intro literal
      have parts := List.cons.inj (Expr.list.inj (same literal))
      rw [parts.1, named'] at named
      rw [Option.some.inj named, parts.2]
  | application plain plain' callee rest =>
      have parts := fun literal => List.cons.inj (Expr.list.inj (same literal))
      simp only [evaluateWith, plain, plain']
      apply Together.bind
        (evaluateOperator_together keeps coupled made callee fun literal => (parts literal).1)
      intro grown callee callee' later later' grows coupled akin
      have still := Nat.lt_of_lt_of_le made grows.made_le
      rw [← grows.region_eq frame made] at rest
      apply Together.bind
        (evaluateOperands_together keeps coupled still rest fun literal => (parts literal).2)
      intro larger values values' last last' growsMore coupled akinOperands
      exact applyWith_together keeps coupled (akin.refine growsMore.refines) akinOperands
        fun literal => by rw [(parts literal).1]

end Steps

/-- Variants run in step in coupled stores, however deep the recursion may go. -/
theorem evaluate_keepsStep (comparison : Comparison) (fuel : Nat) : KeepsStep comparison (evaluate fuel) := by
  induction fuel with
  | zero =>
      intro scopes expression expression' frame machine machine' coupled _ _ _
      exact ⟨trivial, scopes, .refl _, coupled⟩
  | succ fuel inductionHypothesis => exact evaluateWith_keepsStep inductionHypothesis

/-!
### The outset of a comparison
-/

/-- All frames in one region. -/
def Scopes.uniform {comparison : Comparison} (made : Nat) (region : comparison.Region) : Scopes comparison where
  made := made
  region _ := region

/-- Two stores that agree on all that is in sight are coupled, with all frames in one region, if no procedure in
    sight mentions a name that is out of sight. -/
theorem coupled_uniform {comparison : Comparison} {region : comparison.Region} {first second : Store}
    (issued : comparison.issued = first.closures) (issued' : comparison.issued' = second.closures)
    (wellFormed : first.WellFormed) (wellFormed' : second.WellFormed) (sizes : first.size = second.size)
    (parents : ∀ frame, first.parent? frame = second.parent? frame)
    (unchanged : ∀ name name', (comparison.naming region).stands name name' → name = name')
    (bindings : ∀ frame name, (comparison.naming region).stands name name →
      first.local? frame name = second.local? frame name)
    (stored : ∀ frame name value, (comparison.naming region).stands name name →
      first.local? frame name = some value → value.Each fun procedure =>
        ∀ other ∈ procedure.body.mentioned, (comparison.naming region).stands other other) :
    Coupled (.uniform first.size region) first second where
  size_first := rfl
  size_second := sizes.symm
  parents := parents
  ordered := wellFormed.ordered
  outwards _ stands := Or.inr stands
  bindings {frame name name'} made stands := by
    obtain rfl := unchanged name name' stands
    rw [← bindings frame name stands]
    cases found : first.local? frame name with
    | none => exact .none
    | some value =>
        have inStep : ∀ other, (comparison.naming region).InStep other other := by
          intro other one two standing
          rw [unchanged one two standing]
        refine .some (akin_self value fun procedure within => ?_)
        have known := wellFormed.known frame name value found procedure within
        have known' := wellFormed'.known frame name value (bindings frame name stands ▸ found) procedure within
        have identities : comparison.identities procedure.identity procedure.identity :=
          Or.inl ⟨rfl, issued ▸ known.2, issued' ▸ known'.2⟩
        refine ⟨rfl, known.1, identities, fun _ => ⟨rfl, rfl⟩, region, ?_, ?_⟩
        · exact ⟨List.forall₂_same.mpr fun other _ => inStep other, fun _ _ standing => Or.inr standing⟩
        · exact Expr.variant_self inStep (stored frame name value stands found procedure within)
  counters := ⟨0, issued.symm, issued'.symm⟩

end LexLisp
