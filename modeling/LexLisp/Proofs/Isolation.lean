/-
Module: LexLisp.Proofs.Isolation
Purpose: Evaluation depends on what can be reached and on nothing else. Two stores whose reachable parts are
  isomorphic give the same answers, and the reachable parts stay isomorphic. So a global frame that is made
  anew behaves like that of a new session, whatever frames are left over beside it.
Main exports: Isomorphic, Correspondence.Matches.isomorphic, Store.renew, Input, answers, Session.answers,
  evaluation_isolated
-/
import LexLisp.Proofs.Reach
import LexLisp.Proofs.Simulation
import LexLisp.Session

namespace LexLisp

/-- A correspondence pairs exactly the frames that can be reached on one side with those on the other. -/
structure Isomorphic (pairing : Correspondence) (first : Store) (roots : FrameId → Prop)
    (second : Store) (roots' : FrameId → Prop) : Prop where
  matching : pairing.Matches first second
  reached_first : ∀ left, first.Reaches roots left ↔ ∃ right, pairing.frames left right
  reached_second : ∀ right, second.Reaches roots' right ↔ ∃ left, pairing.frames left right

/-- The same stop, or like values. -/
def LikeOutcomes (pairing : Correspondence) : Except Stop Value → Except Stop Value → Prop
  | .ok left, .ok right => Like pairing left right
  | .error stop, .error stop' => stop = stop'
  | _, _ => False

/-- What is shown of an outcome: the text and the kind of a value, or the failure. -/
def shown {failure : Type} : Except failure Value → Except failure (String × String) :=
  Except.map fun value => (value.text, value.kind)

/-- Like outcomes are of one kind. -/
theorem LikeOutcomes.cases {pairing : Correspondence} {left right : Except Stop Value}
    (like : LikeOutcomes pairing left right) :
    (∃ value value', left = .ok value ∧ right = .ok value' ∧ Like pairing value value') ∨
      ∃ stop, left = .error stop ∧ right = .error stop := by
  cases left with
  | ok value =>
      cases right with
      | ok value' => exact Or.inl ⟨value, value', rfl, rfl, like⟩
      | error stop' => exact like.elim
  | error stop =>
      cases right with
      | ok value' => exact like.elim
      | error stop' =>
          cases like
          exact Or.inr ⟨stop, rfl, rfl⟩

theorem LikeOutcomes.shown_eq {pairing : Correspondence} {left right : Except Stop Value}
    (like : LikeOutcomes pairing left right) : shown left = shown right := by
  rcases like.cases with ⟨value, value', rfl, rfl, like⟩ | ⟨stop, rfl, rfl⟩
  · simp only [shown, Except.map, like.text_eq, like.kind_eq]
  · rfl

/-!
### Reaching on both sides
-/

namespace Correspondence

variable {pairing : Correspondence} {first second : Store} {roots roots' : FrameId → Prop}

/-- What is reached on one side has a counterpart that is reached on the other. -/
theorem Matches.reaches (matching : pairing.Matches first second)
    (fromRoots : ∀ left, roots left → ∃ right, roots' right ∧ pairing.frames left right)
    {left : FrameId} (reached : first.Reaches roots left) :
    ∃ right, pairing.frames left right ∧ second.Reaches roots' right := by
  induction reached with
  | root isRoot =>
      obtain ⟨right, isRoot', related⟩ := fromRoots _ isRoot
      exact ⟨right, related, .root isRoot'⟩
  | parent _ link inductionHypothesis =>
      obtain ⟨right, related, reached'⟩ := inductionHypothesis
      rcases rel_cases (matching.parents related) with
        ⟨none, _⟩ | ⟨parent, parent', here, there, corresponding⟩
      · rw [none] at link
        cases link
      · rw [here] at link
        cases link
        exact ⟨parent', corresponding, .parent reached' there⟩
  | @captured frame name value closure _ bound within inductionHypothesis =>
      obtain ⟨right, related, reached'⟩ := inductionHypothesis
      rcases rel_cases (matching.bindings related name) with
        ⟨none, _⟩ | ⟨value, value', here, there, like⟩
      · rw [none] at bound
        cases bound
      · rw [here] at bound
        cases bound
        obtain ⟨other, within', corresponding⟩ := Like.exists_closure within like
        exact ⟨other.home, corresponding, .captured reached' there within'⟩

/-- A match on all pairs is a match on those of the frames that are reached. -/
theorem Matches.restrict (matching : pairing.Matches first second) (roots : FrameId → Prop) :
    (pairing.restrict (first.Reaches roots)).Matches first second where
  frame_functional related related' := matching.frame_functional related.1 related'.1
  frame_injective related related' := matching.frame_injective related.1 related'.1
  identity_functional := matching.identity_functional
  identity_injective := matching.identity_injective
  made related := matching.made related.1
  issued := matching.issued
  parents {left right} related := by
    rcases rel_cases (matching.parents related.1) with
      ⟨here, there⟩ | ⟨parent, parent', here, there, corresponding⟩
    · rw [here, there]
      exact .none
    · rw [here, there]
      exact .some ⟨corresponding, .parent related.2 here⟩
  bindings {left right} related name := by
    rcases rel_cases (matching.bindings related.1 name) with
      ⟨here, there⟩ | ⟨value, value', here, there, like⟩
    · rw [here, there]
      exact .none
    · rw [here, there]
      refine .some (like.restrict ?_)
      intro closure within
      exact .captured related.2 here within
  ordered_first := matching.ordered_first
  ordered_second := matching.ordered_second

/-- Where stores match and the roots correspond, the reachable parts are isomorphic. -/
theorem Matches.isomorphic (matching : pairing.Matches first second)
    (fromFirst : ∀ left, roots left → ∃ right, roots' right ∧ pairing.frames left right)
    (fromSecond : ∀ right, roots' right → ∃ left, roots left ∧ pairing.frames left right) :
    Isomorphic (pairing.restrict (first.Reaches roots)) first roots second roots' where
  matching := matching.restrict roots
  reached_first left := by
    constructor
    · intro reached
      obtain ⟨right, related, _⟩ := matching.reaches fromFirst reached
      exact ⟨right, related, reached⟩
    · rintro ⟨right, _, reached⟩
      exact reached
  reached_second right := by
    constructor
    · intro reached
      obtain ⟨left, related, reached'⟩ := matching.flip.reaches fromSecond reached
      exact ⟨left, related, reached'⟩
    · rintro ⟨left, related, reached⟩
      obtain ⟨other, related', reached'⟩ := matching.reaches fromFirst reached
      exact matching.frame_functional related' related ▸ reached'

end Correspondence

/-- Like outcomes are roots of corresponding frames. -/
theorem rootsAfter_corresponding {pairing : Correspondence} {left right : FrameId}
    {outcome outcome' : Except Stop Value} (related : pairing.frames left right)
    (like : LikeOutcomes pairing outcome outcome') (start : FrameId)
    (isRoot : rootsAfter left outcome start) :
    ∃ start', rootsAfter right outcome' start' ∧ pairing.frames start start' := by
  rcases isRoot with rfl | ⟨value, closure, rfl, within, rfl⟩
  · exact ⟨right, Or.inl rfl, related⟩
  · cases outcome' with
    | ok value' =>
        obtain ⟨other, within', corresponding⟩ := Like.exists_closure within like
        exact ⟨other.home, Or.inr ⟨value', other, rfl, within', rfl⟩, corresponding⟩
    | error stop' => exact like.elim

theorem LikeOutcomes.flip {pairing : Correspondence} {left right : Except Stop Value}
    (like : LikeOutcomes pairing left right) : LikeOutcomes pairing.flip right left := by
  rcases like.cases with ⟨value, value', rfl, rfl, like⟩ | ⟨stop, rfl, rfl⟩
  · exact Like.flip like
  · exact rfl

theorem LikeOutcomes.restrict {pairing : Correspondence} {keep : FrameId → Prop}
    {left right : Except Stop Value} (like : LikeOutcomes pairing left right)
    (each : ∀ value closure, left = .ok value → Value.Within (.closure closure) value →
      keep closure.home) : LikeOutcomes (pairing.restrict keep) left right := by
  rcases like.cases with ⟨value, value', rfl, rfl, like⟩ | ⟨stop, rfl, rfl⟩
  · exact Like.restrict like fun closure within => each value closure rfl within
  · exact rfl

/-- What two mirrored endings leave. -/
theorem Mirrors.outcomes {pairing : Correspondence} {first second : Store}
    {ending ending' : Ending Value} (mirrors : Mirrors pairing first second Like ending ending') :
    ∃ grown, pairing.Grows first second grown ending.store ending'.store ∧
      grown.Matches ending.store ending'.store ∧
        LikeOutcomes grown ending.outcome ending'.outcome := by
  rcases mirrors.cases with ⟨value, value', later, later', grown, rfl, rfl, grows, matching, like⟩ |
    ⟨stop, later, later', grown, rfl, rfl, grows, matching⟩
  · exact ⟨grown, grows, matching, like⟩
  · exact ⟨grown, grows, matching, rfl⟩

/-- Evaluation in stores with isomorphic reachable parts: the same is shown, and the parts that are reachable
    afterwards, also from the value, are isomorphic by pairs that are old or of new frames. -/
theorem evaluate_isomorphic {pairing : Correspondence} {fuel : Nat} {expression : Expr}
    {left right : FrameId} {machine machine' : Machine} {ending ending' : Ending Value}
    (ended : evaluate fuel expression left machine = ending)
    (ended' : evaluate fuel expression right machine' = ending')
    (isomorphic : Isomorphic pairing machine.store (· = left) machine'.store (· = right))
    (related : pairing.frames left right) :
    shown ending.outcome = shown ending'.outcome ∧
      ∃ grown, Isomorphic grown ending.store (rootsAfter left ending.outcome) ending'.store
          (rootsAfter right ending'.outcome) ∧
        grown.frames left right ∧ LikeOutcomes grown ending.outcome ending'.outcome ∧
          ∀ link link', grown.frames link link' → pairing.frames link link' ∨
            (machine.store.size ≤ link ∧ machine'.store.size ≤ link') := by
  have mirrors := evaluate_simulates fuel pairing expression left right machine machine'
    isomorphic.matching related
  rw [ended, ended'] at mirrors
  obtain ⟨grown, grows, matching, like⟩ := mirrors.outcomes
  have still := grows.refines.frames left right related
  have turned : grown.flip.frames right left := still
  have reachable := matching.isomorphic (rootsAfter_corresponding still like)
    (rootsAfter_corresponding turned like.flip)
  refine ⟨like.shown_eq, _, reachable, ⟨still, .root (Or.inl rfl)⟩, ?_, ?_⟩
  · apply like.restrict
    intro value closure isValue within
    exact .root (Or.inr ⟨value, closure, isValue, within, rfl⟩)
  · intro link link' corresponding
    exact grows.new_frames link link' corresponding.1

/-!
### A new global frame beside old frames

`Session.reset` starts over with a new store. A caller may still hold frames and closures of the old one, so
`Store.renew` says what a reset is among frames that stay: one more frame without a parent, in which the
primitives are bound.
-/

/-- The store with one more outermost frame, which binds nothing. -/
def Store.openRoot (store : Store) : Store :=
  { store with frames := store.frames.push ⟨.empty, none⟩ }

/-- The store with one more outermost frame, which binds the primitives. Its number is the old size. -/
def Store.renew (store : Store) : Store :=
  store.openRoot.installPrimitives store.size

theorem Store.frame?_openRoot (store : Store) (frame : FrameId) :
    store.openRoot.frame? frame =
      if frame = store.size then some ⟨.empty, none⟩ else store.frame? frame := by
  simp only [openRoot, frame?, size, Array.getElem?_push]
  rfl

theorem Store.ordered_openRoot {store : Store} (ordered : store.ParentsEarlier) :
    store.openRoot.ParentsEarlier := by
  intro frame parent link
  unfold parent? at link
  rw [frame?_openRoot] at link
  split at link
  · cases link
  · exact ordered frame parent link

/-- The new frame of a store and the first frame of a new store. -/
def renewal (store : Store) : Correspondence :=
  ⟨fun left right => left = store.size ∧ right = Store.globalFrame, fun _ _ => False⟩

theorem renewal_matches_bare {store : Store} (ordered : store.ParentsEarlier) :
    (renewal store).Matches store.openRoot .bare where
  frame_functional related related' := related.2.trans related'.2.symm
  frame_injective related related' := related.1.trans related'.1.symm
  identity_functional none := none.elim
  identity_injective none := none.elim
  made := by
    rintro left right ⟨rfl, rfl⟩
    exact ⟨by simp [Store.openRoot, Store.size], Store.rooted_bare.made⟩
  issued none := none.elim
  parents := by
    rintro left right ⟨rfl, rfl⟩
    unfold Store.parent?
    rw [Store.frame?_openRoot, if_pos rfl]
    exact .none
  bindings := by
    rintro left right ⟨rfl, rfl⟩ name
    unfold Store.local?
    rw [Store.frame?_openRoot, if_pos rfl]
    exact .none
  ordered_first := Store.ordered_openRoot ordered
  ordered_second := Store.wellFormed_bare.ordered

theorem renewal_matches_fresh {store : Store} (ordered : store.ParentsEarlier) :
    (renewal store).Matches store.renew .fresh := by
  have installed : ∀ (primitives : List Primitive) {first second : Store},
      (renewal store).Matches first second →
        (renewal store).Matches
          (primitives.foldl (fun store' primitive =>
            store'.define store.size primitive.name (.primitive primitive)) first)
          (primitives.foldl (fun store' primitive =>
            store'.define Store.globalFrame primitive.name (.primitive primitive)) second) := by
    intro primitives
    induction primitives with
    | nil => exact fun matching => matching
    | cons primitive primitives inductionHypothesis =>
        intro first second matching
        exact inductionHypothesis (matching.define ⟨rfl, rfl⟩ primitive.name (.primitive primitive))
  simp only [Store.renew, Store.fresh, Store.installPrimitives]
  exact installed Primitive.all (renewal_matches_bare ordered)

/-!
### Inputs of a session
-/

/-- What a session is asked: a program text or a tree in its JSON text, with the name that it goes by, or what
    a name is bound to. -/
inductive Input where
  | program (source text : String)
  | tree (source text : String)
  | lookup (name : String)

/-- An input in a frame. -/
def Input.run (fuel : Nat) (frame : FrameId) : Input → Run Value
  | .program source text => runText fuel source text frame
  | .tree source text => runJson fuel source text frame
  | .lookup name => Run.ofEval (Eval.lookup .unboundVariable frame name)

/-- What inputs are answered one after another in a frame. -/
def answers (fuel : Nat) (frame : FrameId) : List Input → Machine → List (Except Failure (String × String))
  | [], _ => []
  | input :: inputs, machine =>
    match input.run fuel frame machine with
    | .ok value later => .ok (value.text, value.kind) :: answers fuel frame inputs later
    | .error failure later => .error failure :: answers fuel frame inputs later

namespace Session

/-- What a session answers, and the session after it. -/
def answer (session : Session) (fuel : Nat) : Input → Except Failure Value × Session
  | .program source text => session.execute fuel source text
  | .tree source text => session.executeJson fuel source text
  | .lookup name =>
    match session.lookup? name with
    | some value => (.ok value, session)
    | none => (.error (.fault (.unboundVariable name)), session)

/-- What a session answers to inputs one after another. -/
def answers (session : Session) (fuel : Nat) : List Input → List (Except Failure (String × String))
  | [] => []
  | input :: inputs =>
    shown (session.answer fuel input).1 :: (session.answer fuel input).2.answers fuel inputs

/-- A session answers as its global frame does. -/
theorem answers_eq (fuel : Nat) : ∀ (inputs : List Input) (session : Session),
    session.answers fuel inputs = LexLisp.answers fuel Store.globalFrame inputs session.machine := by
  intro inputs
  induction inputs with
  | nil => exact fun session => rfl
  | cons input inputs inductionHypothesis =>
      intro session
      unfold answers LexLisp.answers
      cases input with
      | program source text =>
          simp only [answer, execute, perform, Input.run]
          cases runText fuel source text Store.globalFrame session.machine with
          | ok value later => simp only [shown, Except.map, inductionHypothesis]
          | error failure later => simp only [shown, Except.map, inductionHypothesis]
      | tree source text =>
          simp only [answer, executeJson, perform, Input.run]
          cases runJson fuel source text Store.globalFrame session.machine with
          | ok value later => simp only [shown, Except.map, inductionHypothesis]
          | error failure later => simp only [shown, Except.map, inductionHypothesis]
      | lookup name =>
          simp only [answer, lookup?, store, Input.run, Run.ofEval, EStateM.adaptExcept]
          cases found : session.machine.store.lookup? Store.globalFrame name with
          | some value =>
              simp only [Eval.lookup_some found, shown, Except.map, inductionHypothesis]
          | none =>
              simp only [Eval.lookup_none found, shown, Except.map, inductionHypothesis]
              rfl

end Session

/-- Two ends of a run in corresponding frames: the same failure, or like values; and the stores still match. -/
inductive LikeRuns (left right : FrameId) :
    EStateM.Result Failure Machine Value → EStateM.Result Failure Machine Value → Prop where
  | ok {grown : Correspondence} {value value' : Value} {later later' : Machine}
      (related : grown.frames left right) (matching : grown.Matches later.store later'.store)
      (like : Like grown value value') : LikeRuns left right (.ok value later) (.ok value' later')
  | error {grown : Correspondence} {later later' : Machine} (failure : Failure)
      (related : grown.frames left right) (matching : grown.Matches later.store later'.store) :
      LikeRuns left right (.error failure later) (.error failure later')

section Inputs

variable {pairing : Correspondence} {left right : FrameId} {machine machine' : Machine}

theorem Mirrors.ofEval {action action' : Eval Value} (related : pairing.frames left right)
    (mirrors : Mirrors pairing machine.store machine'.store Like (action machine) (action' machine')) :
    LikeRuns left right (Run.ofEval action machine) (Run.ofEval action' machine') := by
  rcases mirrors.cases with ⟨value, value', later, later', grown, ending, ending', grows, matching, like⟩ |
    ⟨stop, later, later', grown, ending, ending', grows, matching⟩
  · simp only [Run.ofEval, EStateM.adaptExcept, ending, ending']
    exact .ok (grows.refines.frames left right related) matching like
  · simp only [Run.ofEval, EStateM.adaptExcept, ending, ending']
    exact .error _ (grows.refines.frames left right related) matching

/-- An input runs alike in corresponding frames of matching stores. -/
theorem Input.run_like (fuel : Nat) (input : Input)
    (matching : pairing.Matches machine.store machine'.store) (related : pairing.frames left right) :
    LikeRuns left right (input.run fuel left machine) (input.run fuel right machine') := by
  cases input with
  | program source text =>
      simp only [Input.run, runText]
      cases read source text with
      | ok forms =>
          exact (evaluateFormsFrom_mirrors fuel forms 0 matching related (.list .nil)).ofEval related
      | error error => exact .error _ related matching
  | tree source text =>
      simp only [Input.run, runJson]
      cases Expr.ofJson? text with
      | some tree =>
          exact (evaluate_simulates fuel pairing tree left right machine machine' matching related).ofEval
            related
      | none => exact .error _ related matching
  | lookup name =>
      apply Mirrors.ofEval related
      rcases Correspondence.rel_cases (matching.lookup? related name) with
        ⟨here, there⟩ | ⟨value, value', here, there, like⟩
      · rw [Eval.lookup_none here, Eval.lookup_none there]
        exact .error matching rfl
      · rw [Eval.lookup_some here, Eval.lookup_some there]
        exact .ok matching like

end Inputs

/-- Corresponding frames of matching stores give the same answers. -/
theorem Correspondence.Matches.answers_eq (fuel : Nat) {left right : FrameId} :
    ∀ (inputs : List Input) {pairing : Correspondence} {machine machine' : Machine},
      pairing.Matches machine.store machine'.store → pairing.frames left right →
        answers fuel left inputs machine = answers fuel right inputs machine' := by
  intro inputs
  induction inputs with
  | nil => exact fun _ _ => rfl
  | cons input inputs inductionHypothesis =>
      intro pairing machine machine' matching related
      have like := input.run_like fuel matching related
      unfold answers
      generalize input.run fuel left machine = ending at like ⊢
      generalize input.run fuel right machine' = ending' at like ⊢
      cases like with
      | ok still matching like =>
          simp only [like.text_eq, like.kind_eq, inductionHypothesis matching still]
      | error failure still matching => simp only [inductionHypothesis matching still]

/-- A global frame that is made anew answers what a session answers after a reset. -/
theorem Store.renew_answers {store : Store} (ordered : store.ParentsEarlier) (log : Array Event)
    (session : Session) (fuel : Nat) (inputs : List Input) :
    answers fuel store.size inputs ⟨store.renew, log⟩ = session.reset.answers fuel inputs := by
  rw [Session.answers_eq]
  have related : (renewal store).frames store.size Store.globalFrame := ⟨rfl, rfl⟩
  have matching := renewal_matches_fresh ordered
  unfold Session.reset Session.fresh Machine.ofStore
  generalize Store.fresh = fresh at matching ⊢
  generalize store.renew = renewed at matching ⊢
  exact matching.answers_eq fuel inputs related

/-- Evaluation neither reads nor writes what it cannot reach. In a well-formed store it leaves unreachable
    frames as they are and makes none of them reachable; in two stores with isomorphic reachable parts it
    shows the same and leaves isomorphic reachable parts; and so a global frame that is made anew answers
    what a new session answers, whatever frames are left beside it. -/
theorem evaluation_isolated (fuel : Nat) (expression : Expr) :
    (∀ (frame : FrameId) (machine : Machine) (ending : Ending Value),
      evaluate fuel expression frame machine = ending → machine.store.WellFormed →
        frame < machine.store.size →
          (∀ other, other < machine.store.size → ¬ machine.store.Reaches (· = frame) other →
            ending.store.frame? other = machine.store.frame? other) ∧
          ∀ other, ending.store.Reaches (rootsAfter frame ending.outcome) other →
            machine.store.Reaches (· = frame) other ∨ machine.store.size ≤ other) ∧
    (∀ (pairing : Correspondence) (left right : FrameId) (machine machine' : Machine)
      (ending ending' : Ending Value),
      evaluate fuel expression left machine = ending →
        evaluate fuel expression right machine' = ending' →
          Isomorphic pairing machine.store (· = left) machine'.store (· = right) →
            pairing.frames left right →
              shown ending.outcome = shown ending'.outcome ∧
                ∃ grown, Isomorphic grown ending.store (rootsAfter left ending.outcome) ending'.store
                    (rootsAfter right ending'.outcome) ∧
                  grown.frames left right ∧ LikeOutcomes grown ending.outcome ending'.outcome ∧
                    ∀ link link', grown.frames link link' → pairing.frames link link' ∨
                      (machine.store.size ≤ link ∧ machine'.store.size ≤ link')) ∧
    ∀ (store : Store) (log : Array Event) (session : Session) (inputs : List Input), store.WellFormed →
      answers fuel store.size inputs ⟨store.renew, log⟩ = session.reset.answers fuel inputs := by
  refine ⟨?_, ?_, ?_⟩
  · intro frame machine ending ended wellFormed made
    exact evaluate_confined ended wellFormed made
  · intro pairing left right machine machine' ending ending' ended ended' isomorphic related
    exact evaluate_isomorphic ended ended' isomorphic related
  · intro store log session inputs wellFormed
    exact Store.renew_answers wellFormed.ordered log session fuel inputs

/-- A definition in the global frame leaves the frame of an earlier call as it is, shows in a global frame
    that is made anew what it shows in a new store, and an argument of that call is not found there. -/
theorem evaluation_isolated_beside_call :
    let opened : Store := (Store.fresh.enter Store.globalFrame ["x"] [.symbol "a"]).2
    let renewed : Machine := ⟨opened.renew, #[]⟩
    let expression : Expr := .list [.symbol "define", .symbol "y", .symbol "car"]
    let ending : Ending Value := evaluate 2 expression Store.globalFrame ⟨opened, #[]⟩
    let fresh : Ending Value := evaluate 2 expression Store.globalFrame ⟨.fresh, #[]⟩
    let anew : Ending Value := evaluate 2 expression opened.size renewed
    ¬ opened.Reaches (· = Store.globalFrame) 1 ∧ ending.store.frame? 1 = opened.frame? 1 ∧
      shown anew.outcome = shown fresh.outcome ∧
        answers 2 opened.size [.lookup "x"] renewed = Session.fresh.reset.answers 2 [.lookup "x"] := by
  intro opened renewed expression ending fresh anew
  obtain ⟨confined, isomorphic, answered⟩ := evaluation_isolated 2 expression
  have wellFormed : opened.WellFormed := by
    apply Store.wellFormed_fresh.enter (by decide)
    intro value member closure within
    rw [List.mem_singleton.mp member] at within
    cases within
  -- No closure was made yet, so the global frame leads nowhere else.
  have alone : ¬ opened.Reaches (· = Store.globalFrame) 1 := by
    intro reached
    have none : (1 : FrameId) = Store.globalFrame := by
      refine reached.inside (fun _ isRoot => isRoot) ?_ ?_
      · rintro frame parent rfl link
        cases link
      · rintro frame name value rfl found closure within
        have issued : closure.identity < 0 := (wellFormed.known _ name value found closure within).2
        exact absurd issued (Nat.not_lt_zero _)
    exact absurd none (by decide)
  have matching := renewal_matches_fresh wellFormed.ordered
  have related : (renewal opened).frames opened.size Store.globalFrame := ⟨rfl, rfl⟩
  have both : Isomorphic ((renewal opened).restrict (opened.renew.Reaches (· = opened.size)))
      opened.renew (· = opened.size) .fresh (· = Store.globalFrame) := by
    apply matching.isomorphic
    · rintro left rfl
      exact ⟨_, rfl, related⟩
    · rintro right rfl
      exact ⟨_, rfl, related⟩
  refine ⟨alone, ?_, ?_, answered opened #[] .fresh [.lookup "x"] wellFormed⟩
  · exact (confined Store.globalFrame ⟨opened, #[]⟩ ending rfl wellFormed (by decide)).1 1 (by decide) alone
  · exact (isomorphic _ opened.size Store.globalFrame renewed ⟨.fresh, #[]⟩ anew fresh rfl rfl both
      ⟨related, .root rfl⟩).1

end LexLisp
