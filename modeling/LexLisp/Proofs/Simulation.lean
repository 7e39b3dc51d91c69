/-
Module: LexLisp.Proofs.Simulation
Purpose: Two runs side by side. Where the frames of two stores correspond, with like bindings and corresponding
  parents, the same expression runs alike in corresponding frames: every step that one run takes the other
  takes too, and each new frame or closure of one corresponds to the one that the other makes.
Main exports: Correspondence.Matches, Mirrors, Simulates, evaluate_simulates, evaluateFormsFrom_mirrors
-/
import LexLisp.Proofs.Chain
import LexLisp.Proofs.Likeness
import LexLisp.Proofs.Outcome
import LexLisp.Program
import Mathlib.Data.List.Forall2

namespace LexLisp

namespace Correspondence

theorem rel_mono {α β : Type} {small large : α → β → Prop}
    (weaker : ∀ left right, small left right → large left right) {left : Option α} {right : Option β}
    (related : Option.Rel small left right) : Option.Rel large left right := by
  cases related with
  | none => exact .none
  | some known => exact .some (weaker _ _ known)

/-- Of two related options either both are there or none is. -/
theorem rel_cases {α β : Type} {relation : α → β → Prop} {left : Option α} {right : Option β}
    (related : Option.Rel relation left right) :
    (left = none ∧ right = none) ∨
      ∃ here there, left = some here ∧ right = some there ∧ relation here there := by
  cases related with
  | none => exact Or.inl ⟨rfl, rfl⟩
  | some known => exact Or.inr ⟨_, _, rfl, rfl, known⟩

theorem rel_flip {α β : Type} {relation : α → β → Prop} {converse : β → α → Prop}
    (turned : ∀ left right, relation left right → converse right left) {left : Option α}
    {right : Option β} (related : Option.Rel relation left right) : Option.Rel converse right left := by
  cases related with
  | none => exact .none
  | some known => exact .some (turned _ _ known)

/-- The pairs of a correspondence are a bijection between frames that exist and between identities that were
    given out; frames that correspond have parents that correspond and bind the same names to like values. -/
structure Matches (pairing : Correspondence) (first second : Store) : Prop where
  frame_functional : ∀ {left right right'}, pairing.frames left right → pairing.frames left right' →
    right = right'
  frame_injective : ∀ {left left' right}, pairing.frames left right → pairing.frames left' right →
    left = left'
  identity_functional : ∀ {left right right'}, pairing.identities left right →
    pairing.identities left right' → right = right'
  identity_injective : ∀ {left left' right}, pairing.identities left right →
    pairing.identities left' right → left = left'
  made : ∀ {left right}, pairing.frames left right → left < first.size ∧ right < second.size
  issued : ∀ {left right}, pairing.identities left right →
    left < first.closures ∧ right < second.closures
  parents : ∀ {left right}, pairing.frames left right →
    Option.Rel pairing.frames (first.parent? left) (second.parent? right)
  bindings : ∀ {left right}, pairing.frames left right → ∀ name,
    Option.Rel (Like pairing) (first.local? left name) (second.local? right name)
  ordered_first : first.ParentsEarlier
  ordered_second : second.ParentsEarlier

/-- A correspondence that has grown along with two stores: the pairs that it has more are of new frames. -/
structure Grows (small : Correspondence) (first second : Store) (large : Correspondence)
    (first' second' : Store) : Prop where
  refines : small.Refines large
  new_frames : ∀ left right, large.frames left right → small.frames left right ∨
    (first.size ≤ left ∧ second.size ≤ right)
  first_le : first.size ≤ first'.size
  second_le : second.size ≤ second'.size

theorem Grows.refl (pairing : Correspondence) (first second : Store) :
    pairing.Grows first second pairing first second :=
  ⟨.refl pairing, fun _ _ related => Or.inl related, Nat.le_refl _, Nat.le_refl _⟩

/-- Growth in two steps is growth, with the correspondence that the second has reached. -/
theorem Grows.trans {one two three : Correspondence} {a b a' b' a'' b'' : Store}
    (early : one.Grows a b two a' b') (late : two.Grows a' b' three a'' b'') :
    one.Grows a b three a'' b'' where
  refines := early.refines.trans late.refines
  new_frames left right related := by
    rcases late.new_frames left right related with old | ⟨newLeft, newRight⟩
    · exact early.new_frames left right old
    · exact Or.inr ⟨Nat.le_trans early.first_le newLeft, Nat.le_trans early.second_le newRight⟩
  first_le := Nat.le_trans early.first_le late.first_le
  second_le := Nat.le_trans early.second_le late.second_le

variable {pairing : Correspondence} {first second : Store}

/-- A match can be read from right to left. -/
theorem Matches.flip (matching : pairing.Matches first second) : pairing.flip.Matches second first where
  frame_functional related related' := matching.frame_injective related related'
  frame_injective related related' := matching.frame_functional related related'
  identity_functional related related' := matching.identity_injective related related'
  identity_injective related related' := matching.identity_functional related related'
  made related := (matching.made related).symm
  issued related := (matching.issued related).symm
  parents related := rel_flip (fun _ _ corresponding => corresponding) (matching.parents related)
  bindings related name := rel_flip (fun _ _ like => like.flip) (matching.bindings related name)
  ordered_first := matching.ordered_second
  ordered_second := matching.ordered_first

/-!
### Searches along corresponding chains
-/

/-- Corresponding frames have chains of one length, link by link corresponding. -/
theorem Matches.chains (matching : pairing.Matches first second) {left right : FrameId}
    (related : pairing.frames left right) :
    List.Forall₂ pairing.frames (first.chain left) (second.chain right) := by
  induction left using Nat.strongRecOn generalizing right with
  | ind left inductionHypothesis =>
      obtain ⟨leftMade, rightMade⟩ := matching.made related
      rcases rel_cases (matching.parents related) with
        ⟨link, link'⟩ | ⟨parent, parent', link, link', corresponding⟩
      · rw [Store.chain_of_root leftMade link, Store.chain_of_root rightMade link']
        exact .cons related .nil
      · rw [Store.chain_of_parent matching.ordered_first link,
          Store.chain_of_parent matching.ordered_second link']
        exact .cons related
          (inductionHypothesis parent (matching.ordered_first left parent link) corresponding)

/-- Searches from frames that correspond find like values, or both find none. -/
theorem Matches.lookup? (matching : pairing.Matches first second) {left right : FrameId}
    (related : pairing.frames left right) (name : String) :
    Option.Rel (Like pairing) (first.lookup? left name) (second.lookup? right name) := by
  have chains := matching.chains related
  unfold Store.lookup?
  generalize first.chain left = lefts at chains
  generalize second.chain right = rights at chains
  induction chains with
  | nil => exact .none
  | cons corresponding _ inductionHypothesis =>
      rcases rel_cases (matching.bindings corresponding name) with
        ⟨here, there⟩ | ⟨value, value', here, there, like⟩
      · simpa only [List.findSome?_cons, here, there] using inductionHypothesis
      · simpa only [List.findSome?_cons, here, there] using Option.Rel.some like

/-- They find them in frames that correspond. -/
theorem Matches.nearest? (matching : pairing.Matches first second) {left right : FrameId}
    (related : pairing.frames left right) (name : String) :
    Option.Rel pairing.frames (first.nearest? left name) (second.nearest? right name) := by
  have chains := matching.chains related
  unfold Store.nearest?
  generalize first.chain left = lefts at chains
  generalize second.chain right = rights at chains
  induction chains with
  | nil => exact .none
  | cons corresponding _ inductionHypothesis =>
      rcases rel_cases (matching.bindings corresponding name) with
        ⟨here, there⟩ | ⟨value, value', here, there, _⟩
      · simpa only [List.find?_cons, Store.bindsLocally, here, there, Option.isSome_none] using
          inductionHypothesis
      · simpa only [List.find?_cons, Store.bindsLocally, here, there, Option.isSome_some] using
          Option.Rel.some corresponding

/-!
### Steps of two stores at once
-/

/-- Like values may be bound on both sides, in frames that correspond. -/
theorem Matches.define (matching : pairing.Matches first second) {left right : FrameId}
    (related : pairing.frames left right) (name : String) {value value' : Value}
    (like : Like pairing value value') :
    pairing.Matches (first.define left name value) (second.define right name value') where
  frame_functional := matching.frame_functional
  frame_injective := matching.frame_injective
  identity_functional := matching.identity_functional
  identity_injective := matching.identity_injective
  made corresponding := by simpa using matching.made corresponding
  issued corresponding := matching.issued corresponding
  parents corresponding := by simpa using matching.parents corresponding
  bindings {link link'} corresponding wanted := by
    obtain ⟨leftMade, rightMade⟩ := matching.made related
    rw [Store.local?_define leftMade, Store.local?_define rightMade]
    -- The two frames are written together: a bijection pairs them with each other only.
    have together : link = left ↔ link' = right := by
      constructor
      · intro same
        exact matching.frame_functional (same ▸ corresponding) related
      · intro same
        exact matching.frame_injective (same ▸ corresponding) related
    by_cases here : link = left ∧ wanted = name
    · rw [if_pos here, if_pos ⟨together.mp here.1, here.2⟩]
      exact .some like
    · rw [if_neg here, if_neg fun there => here ⟨together.mpr there.1, there.2⟩]
      exact matching.bindings corresponding wanted
  ordered_first := matching.ordered_first.define left name value
  ordered_second := matching.ordered_second.define right name value'

theorem Grows.define (pairing : Correspondence) (first second : Store) (left right : FrameId)
    (name : String) (value value' : Value) :
    pairing.Grows first second pairing (first.define left name value)
      (second.define right name value') :=
  ⟨.refl pairing, fun _ _ related => Or.inl related, by simp, by simp⟩

/-- The correspondence with one more pair of frames. -/
def addFrame (pairing : Correspondence) (left right : FrameId) : Correspondence :=
  { pairing with frames := fun link link' =>
      pairing.frames link link' ∨ (link = left ∧ link' = right) }

/-- The correspondence with one more pair of identities. -/
def addIdentity (pairing : Correspondence) (left right : Nat) : Correspondence :=
  { pairing with identities := fun identity identity' =>
      pairing.identities identity identity' ∨ (identity = left ∧ identity' = right) }

theorem refines_addFrame (pairing : Correspondence) (left right : FrameId) :
    pairing.Refines (pairing.addFrame left right) :=
  ⟨fun _ _ related => Or.inl related, fun _ _ related => related⟩

theorem refines_addIdentity (pairing : Correspondence) (left right : Nat) :
    pairing.Refines (pairing.addIdentity left right) :=
  ⟨fun _ _ related => related, fun _ _ related => Or.inl related⟩

/-- The frames of two calls with like operands bind the parameters to like values. -/
theorem get?_insertAll_like (name : String) :
    ∀ {names : List String} {values values' : List Value} {bindings bindings' : Bindings},
      LikeItems pairing values values' →
      Option.Rel (Like pairing) (bindings.get? name) (bindings'.get? name) →
        Option.Rel (Like pairing) ((bindings.insertAll (names.zip values)).get? name)
          ((bindings'.insertAll (names.zip values')).get? name)
  | [], _, _, _, _, _, before => before
  | parameter :: names, _, _, _, _, .nil, before => before
  | parameter :: names, _, _, bindings, bindings', .cons like rest, before => by
      apply get?_insertAll_like name rest
      rw [Bindings.get?_insert, Bindings.get?_insert]
      by_cases same : name = parameter
      · rw [if_pos same, if_pos same]
        exact .some like
      · rw [if_neg same, if_neg same]
        exact before

/-- Calls on both sides make frames that correspond from then on. -/
theorem Matches.enter (matching : pairing.Matches first second) {home away : FrameId}
    (related : pairing.frames home away) (names : List String) {values values' : List Value}
    (like : LikeItems pairing values values') :
    (pairing.addFrame first.size second.size).Matches (first.enter home names values).2
      (second.enter away names values').2 where
  frame_functional := by
    intro left right right' one two
    rcases one with old | ⟨rfl, rfl⟩ <;> rcases two with old' | ⟨new, rfl⟩
    · exact matching.frame_functional old old'
    · exact absurd (matching.made old).1 (new ▸ Nat.lt_irrefl _)
    · exact absurd (matching.made old').1 (Nat.lt_irrefl _)
    · rfl
  frame_injective := by
    intro left left' right one two
    rcases one with old | ⟨rfl, rfl⟩ <;> rcases two with old' | ⟨rfl, new⟩
    · exact matching.frame_injective old old'
    · exact absurd (matching.made old).2 (new ▸ Nat.lt_irrefl _)
    · exact absurd (matching.made old').2 (Nat.lt_irrefl _)
    · rfl
  identity_functional := matching.identity_functional
  identity_injective := matching.identity_injective
  made := by
    intro left right pair
    rcases pair with old | ⟨rfl, rfl⟩
    · have made := matching.made old
      rw [Store.size_enter, Store.size_enter]
      exact ⟨Nat.lt_succ_of_lt made.1, Nat.lt_succ_of_lt made.2⟩
    · rw [Store.size_enter, Store.size_enter]
      exact ⟨Nat.lt_succ_self _, Nat.lt_succ_self _⟩
  issued corresponding := matching.issued corresponding
  parents := by
    intro left right pair
    rcases pair with old | ⟨rfl, rfl⟩
    · have made := matching.made old
      rw [Store.parent?_enter, Store.parent?_enter, if_neg (Nat.ne_of_lt made.1),
        if_neg (Nat.ne_of_lt made.2)]
      exact rel_mono (refines_addFrame pairing _ _).frames (matching.parents old)
    · rw [Store.parent?_enter, Store.parent?_enter, if_pos rfl, if_pos rfl]
      exact .some (Or.inl related)
  bindings := by
    intro left right pair name
    rcases pair with old | ⟨rfl, rfl⟩
    · have made := matching.made old
      unfold Store.local?
      rw [Store.frame?_enter_of_lt made.1, Store.frame?_enter_of_lt made.2]
      exact rel_mono (fun _ _ known => known.refine (refines_addFrame pairing _ _))
        (matching.bindings old name)
    · unfold Store.local?
      rw [Store.frame?_enter, Store.frame?_enter, if_pos rfl, if_pos rfl]
      apply get?_insertAll_like name (like.refine (refines_addFrame pairing _ _))
      exact .none
  ordered_first := matching.ordered_first.enter (matching.made related).1 names values
  ordered_second := matching.ordered_second.enter (matching.made related).2 names values'

theorem Grows.enter (pairing : Correspondence) (first second : Store) (home away : FrameId)
    (names : List String) (values values' : List Value) :
    pairing.Grows first second (pairing.addFrame first.size second.size)
      (first.enter home names values).2 (second.enter away names values').2 where
  refines := refines_addFrame pairing _ _
  new_frames := by
    intro left right pair
    rcases pair with old | ⟨rfl, rfl⟩
    · exact Or.inl old
    · exact Or.inr ⟨Nat.le_refl _, Nat.le_refl _⟩
  first_le := by simp
  second_le := by simp

/-- Closures made on both sides have identities that correspond from then on. -/
theorem Matches.close (matching : pairing.Matches first second) :
    (pairing.addIdentity first.closures second.closures).Matches
      { first with closures := first.closures + 1 }
      { second with closures := second.closures + 1 } where
  frame_functional := matching.frame_functional
  frame_injective := matching.frame_injective
  identity_functional := by
    intro left right right' one two
    rcases one with old | ⟨rfl, rfl⟩ <;> rcases two with old' | ⟨new, rfl⟩
    · exact matching.identity_functional old old'
    · exact absurd (matching.issued old).1 (new ▸ Nat.lt_irrefl _)
    · exact absurd (matching.issued old').1 (Nat.lt_irrefl _)
    · rfl
  identity_injective := by
    intro left left' right one two
    rcases one with old | ⟨rfl, rfl⟩ <;> rcases two with old' | ⟨rfl, new⟩
    · exact matching.identity_injective old old'
    · exact absurd (matching.issued old).2 (new ▸ Nat.lt_irrefl _)
    · exact absurd (matching.issued old').2 (Nat.lt_irrefl _)
    · rfl
  made corresponding := matching.made corresponding
  issued := by
    intro left right pair
    rcases pair with old | ⟨rfl, rfl⟩
    · have issued := matching.issued old
      exact ⟨Nat.lt_succ_of_lt issued.1, Nat.lt_succ_of_lt issued.2⟩
    · exact ⟨Nat.lt_succ_self _, Nat.lt_succ_self _⟩
  parents corresponding := matching.parents corresponding
  bindings corresponding name :=
    rel_mono (fun _ _ known => known.refine (refines_addIdentity pairing _ _))
      (matching.bindings corresponding name)
  ordered_first := matching.ordered_first
  ordered_second := matching.ordered_second

theorem Grows.close (pairing : Correspondence) (first second : Store) :
    pairing.Grows first second (pairing.addIdentity first.closures second.closures)
      { first with closures := first.closures + 1 } { second with closures := second.closures + 1 } :=
  ⟨refines_addIdentity pairing _ _, fun _ _ related => Or.inl related, Nat.le_refl _, Nat.le_refl _⟩

end Correspondence

/-!
### Two endings
-/

/-- Two endings that mirror each other: both stop, for the same reason, or both yield what `good` relates; and
    the correspondence has grown to match the two stores. -/
def Mirrors {α β : Type} (pairing : Correspondence) (first second : Store)
    (good : Correspondence → α → β → Prop) : Ending α → Ending β → Prop
  | .ok left machine, .ok right machine' =>
    ∃ grown, pairing.Grows first second grown machine.store machine'.store ∧
      grown.Matches machine.store machine'.store ∧ good grown left right
  | .error stop machine, .error stop' machine' => stop = stop' ∧
    ∃ grown, pairing.Grows first second grown machine.store machine'.store ∧
      grown.Matches machine.store machine'.store
  | _, _ => False

namespace Mirrors

variable {α β α' β' : Type} {pairing : Correspondence}

/-- Endings that mirror each other are of one kind. -/
theorem cases {first second : Store} {good : Correspondence → α → β → Prop} {ending : Ending α}
    {ending' : Ending β} (mirrors : Mirrors pairing first second good ending ending') :
    (∃ left right later later' grown, ending = .ok left later ∧ ending' = .ok right later' ∧
      pairing.Grows first second grown later.store later'.store ∧
        grown.Matches later.store later'.store ∧ good grown left right) ∨
    ∃ stop later later' grown, ending = .error stop later ∧ ending' = .error stop later' ∧
      pairing.Grows first second grown later.store later'.store ∧
        grown.Matches later.store later'.store := by
  cases ending with
  | ok left later =>
      cases ending' with
      | ok right later' =>
          obtain ⟨grown, grows, matching, related⟩ := mirrors
          exact Or.inl ⟨left, right, later, later', grown, rfl, rfl, grows, matching, related⟩
      | error stop' later' => exact mirrors.elim
  | error stop later =>
      cases ending' with
      | ok right later' => exact mirrors.elim
      | error stop' later' =>
          obtain ⟨rfl, grown, grows, matching⟩ := mirrors
          exact Or.inr ⟨stop, later, later', grown, rfl, rfl, grows, matching⟩

/-- What mirrors later mirrors from the start, if the stores have grown in step up to there. -/
theorem after {first second first' second' : Store} {grown : Correspondence}
    {good : Correspondence → α → β → Prop} {ending : Ending α} {ending' : Ending β}
    (early : pairing.Grows first second grown first' second')
    (late : Mirrors grown first' second' good ending ending') :
    Mirrors pairing first second good ending ending' := by
  rcases late.cases with ⟨left, right, later, later', larger, rfl, rfl, grows, matching, related⟩ |
    ⟨stop, later, later', larger, rfl, rfl, grows, matching⟩
  · exact ⟨larger, early.trans grows, matching, related⟩
  · exact ⟨rfl, larger, early.trans grows, matching⟩

/-- Two pairs of actions in sequence. -/
theorem bind {first second : Store} {middle : Correspondence → α → β → Prop}
    {good : Correspondence → α' → β' → Prop} {action : Eval α} {action' : Eval β}
    {next : α → Eval α'} {next' : β → Eval β'} {machine machine' : Machine}
    (early : Mirrors pairing first second middle (action machine) (action' machine'))
    (late : ∀ grown left right later later',
      pairing.Grows first second grown later.store later'.store →
        grown.Matches later.store later'.store → middle grown left right →
          Mirrors grown later.store later'.store good (next left later) (next' right later')) :
    Mirrors pairing first second good ((action >>= next) machine) ((action' >>= next') machine') := by
  rcases early.cases with ⟨left, right, later, later', grown, ending, ending', grows, matching, related⟩ |
    ⟨stop, later, later', grown, ending, ending', grows, matching⟩
  · rw [Eval.bind_ok ending, Eval.bind_ok ending']
    exact (late grown left right later later' grows matching related).after grows
  · rw [Eval.bind_error ending, Eval.bind_error ending']
    exact ⟨rfl, grown, grows, matching⟩

variable {good : Correspondence → α → β → Prop} {machine machine' : Machine}

/-- Two actions that both yield mirror each other if the stores match and the values are related. -/
theorem ok (matching : pairing.Matches machine.store machine'.store) {left : α} {right : β}
    (related : good pairing left right) :
    Mirrors pairing machine.store machine'.store good (.ok left machine) (.ok right machine') :=
  ⟨pairing, .refl _ _ _, matching, related⟩

/-- Two actions that both stop mirror each other if the stores match and the stops are the same. -/
theorem error (matching : pairing.Matches machine.store machine'.store) {stop stop' : Stop}
    (same : stop = stop') :
    Mirrors pairing machine.store machine'.store good (.error stop machine : Ending α)
      (.error stop' machine' : Ending β) :=
  ⟨same, pairing, .refl _ _ _, matching⟩

/-- Events in the two logs leave the stores alone; they need not agree. -/
theorem record {event event' : Event} {next : Unit → Eval α} {next' : Unit → Eval β}
    (rest : ∀ logged logged' : Machine, logged.store = machine.store →
      logged'.store = machine'.store →
        Mirrors pairing logged.store logged'.store good (next () logged) (next' () logged')) :
    Mirrors pairing machine.store machine'.store good ((Eval.record event >>= next) machine)
      ((Eval.record event' >>= next') machine') :=
  rest { machine with log := machine.log.push event }
    { machine' with log := machine'.log.push event' } rfl rfl

end Mirrors

/-- Two evaluators that run alike in corresponding frames. -/
def Simulates (inner : Evaluator) : Prop :=
  ∀ (pairing : Correspondence) (expression : Expr) (left right : FrameId) (machine machine' : Machine),
    pairing.Matches machine.store machine'.store → pairing.frames left right →
      Mirrors pairing machine.store machine'.store Like (inner expression left machine)
        (inner expression right machine')

/-!
### Steps of evaluation
-/

section Steps

variable {inner : Evaluator} {pairing : Correspondence} {left right : FrameId}
  {machine machine' : Machine}

/-- A symbol is the same tag on both sides, or is looked up on both. -/
theorem evaluateSymbol_mirrors (missing : String → Fault) (name : String)
    (matching : pairing.Matches machine.store machine'.store) (related : pairing.frames left right) :
    Mirrors pairing machine.store machine'.store Like (evaluateSymbol missing name left machine)
      (evaluateSymbol missing name right machine') := by
  unfold evaluateSymbol
  cases truth? name with
  | some value => exact .ok matching (.boolean value)
  | none =>
      rcases Correspondence.rel_cases (matching.lookup? related name) with
        ⟨here, there⟩ | ⟨value, value', here, there, like⟩
      · simp only [Eval.lookup_none here, Eval.lookup_none there]
        exact .error matching rfl
      · simp only [Eval.lookup_some here, Eval.lookup_some there]
        exact .ok matching like

/-- Operands in turn yield like lists, or both sides stop at the same operand. -/
theorem evaluateOperands_mirrors (simulates : Simulates inner) :
    ∀ (operands : List Expr) {pairing : Correspondence} {machine machine' : Machine},
      pairing.Matches machine.store machine'.store → pairing.frames left right →
        Mirrors pairing machine.store machine'.store LikeItems
          (evaluateOperands inner left operands machine)
          (evaluateOperands inner right operands machine')
  | [], _, _, _, matching, _ => .ok matching .nil
  | operand :: operands, pairing, machine, machine', matching, related => by
      unfold evaluateOperands
      apply Mirrors.bind (simulates pairing operand left right machine machine' matching related)
      intro grown value value' later later' grows matching like
      have still := grows.refines.frames left right related
      apply Mirrors.bind (evaluateOperands_mirrors simulates operands matching still)
      intro larger values values' last last' growsMore matching likeRest
      exact .ok matching (.cons (like.refine growsMore.refines) likeRest)

/-- Expressions in sequence mirror each other if each does. -/
theorem evaluateSequence_mirrors (simulates : Simulates inner) :
    ∀ (rest : List Expr) (first : Expr) {pairing : Correspondence} {machine machine' : Machine},
      pairing.Matches machine.store machine'.store → pairing.frames left right →
        Mirrors pairing machine.store machine'.store Like
          (evaluateSequence inner left first rest machine)
          (evaluateSequence inner right first rest machine')
  | [], first, pairing, machine, machine', matching, related =>
      simulates pairing first left right machine machine' matching related
  | next :: rest, first, pairing, machine, machine', matching, related => by
      unfold evaluateSequence
      apply Mirrors.bind (simulates pairing first left right machine machine' matching related)
      intro grown _ _ later later' grows matching _
      exact evaluateSequence_mirrors simulates rest next matching
        (grows.refines.frames left right related)

/-- Like callees do the same with like operands: a primitive is the same on both sides, and closures have one body and
    enter frames that correspond. -/
theorem applyWith_mirrors (simulates : Simulates inner) {callee callee' : Value}
    {operands operands' : List Value} (operator : String)
    (matching : pairing.Matches machine.store machine'.store) (like : Like pairing callee callee')
    (likeOperands : LikeItems pairing operands operands') :
    Mirrors pairing machine.store machine'.store Like (applyWith inner callee operands operator machine)
      (applyWith inner callee' operands' operator machine') := by
  unfold applyWith
  apply Mirrors.record
  intro logged logged' sameStore sameStore'
  rw [← sameStore, ← sameStore'] at matching
  have reported := like.text_eq
  cases like with
  | primitive primitive =>
      have results := primitive.call_like likeOperands
      dsimp only
      generalize primitive.call operands = result at results
      generalize primitive.call operands' = result' at results
      cases result with
      | ok value =>
          cases result' with
          | ok value' => exact .ok matching results
          | error fault' => exact results.elim
      | error fault =>
          cases result' with
          | ok value' => exact results.elim
          | error fault' => exact .error matching (congrArg Stop.fault results)
  | closure parameters body identities frames =>
      have sameCount := likeOperands.length_eq
      by_cases counts : parameters.length = operands.length
      · simp only [Eval.bind_ok (Eval.enter_of_counts counts),
          Eval.bind_ok (Eval.enter_of_counts (counts.trans sameCount))]
        have entered := matching.enter frames parameters likeOperands
        exact (simulates _ body _ _ _ _ entered (Or.inr ⟨rfl, rfl⟩)).after (.enter ..)
      · simp only [Eval.bind_error (Eval.enter_of_counts_ne counts),
          Eval.bind_error (Eval.enter_of_counts_ne (sameCount ▸ counts))]
        exact .error matching (by rw [sameCount])
  | number value => exact .error matching rfl
  | symbol name => exact .error matching rfl
  | boolean value => exact .error matching rfl
  | list items => exact .error matching (by rw [reported])

/-- The callees of an application are alike, so both can be called or neither can. -/
theorem evaluateOperator_mirrors (simulates : Simulates inner) (head : Expr)
    (matching : pairing.Matches machine.store machine'.store) (related : pairing.frames left right) :
    Mirrors pairing machine.store machine'.store Like (evaluateOperator inner head left machine)
      (evaluateOperator inner head right machine') := by
  have atHead : Mirrors pairing machine.store machine'.store Like
      (evaluateHead inner head left machine) (evaluateHead inner head right machine') := by
    cases head with
    | symbol name => exact evaluateSymbol_mirrors .unknownOperator name matching related
    | number | list => exact simulates pairing _ left right machine machine' matching related
  unfold evaluateOperator
  apply Mirrors.bind atHead
  intro grown callee callee' later later' _ matching like
  rw [like.isCallable_eq]
  split
  · exact .ok matching like
  · exact .error matching rfl

/-- A form that makes a procedure makes corresponding ones. -/
theorem close_mirrors (names : List String) (body : Expr)
    (matching : pairing.Matches machine.store machine'.store) (related : pairing.frames left right) :
    Mirrors pairing machine.store machine'.store Like (Eval.close names body left machine)
      (Eval.close names body right machine') := by
  rw [Eval.close_apply, Eval.close_apply]
  refine ⟨_, .close pairing machine.store machine'.store, matching.close, ?_⟩
  exact .closure names body (Or.inr ⟨rfl, rfl⟩) related

/-- What `define` and `set!` share: a name, and then the value of the body. -/
theorem binding_mirrors (simulates : Simulates inner) {keyword : Keyword} {target body : Expr}
    {next next' : String → Value → Eval Value}
    (matching : pairing.Matches machine.store machine'.store) (related : pairing.frames left right)
    (bind : ∀ grown name value value' later later',
      pairing.Grows machine.store machine'.store grown later.store later'.store →
        grown.Matches later.store later'.store → Like grown value value' →
          Mirrors grown later.store later'.store Like (next name value later)
            (next' name value' later')) :
    Mirrors pairing machine.store machine'.store Like
      ((do
        let name ← Eval.ofExcept (bindingName keyword target)
        let value ← inner body left
        next name value : Eval Value) machine)
      ((do
        let name ← Eval.ofExcept (bindingName keyword target)
        let value ← inner body right
        next' name value : Eval Value) machine') := by
  cases target with
  | symbol name =>
      apply Mirrors.bind (simulates pairing body left right machine machine' matching related)
      intro grown value value' later later' grows matching like
      exact bind grown name value value' later later' grows matching like
  | number | list => exact .error matching rfl

/-- A special form does the same on both sides, case by case. -/
theorem evaluateForm_mirrors (simulates : Simulates inner) (keyword : Keyword) (operands : List Expr)
    (matching : pairing.Matches machine.store machine'.store) (related : pairing.frames left right) :
    Mirrors pairing machine.store machine'.store Like (evaluateForm inner keyword operands left machine)
      (evaluateForm inner keyword operands right machine') := by
  unfold evaluateForm
  split
  · -- quote
    next body => exact .ok matching (like_ofDatum pairing body)
  · -- define
    apply binding_mirrors simulates matching related
    intro grown name value value' later later' grows matching like
    apply Mirrors.record
    intro logged logged' sameStore sameStore'
    rw [← sameStore, ← sameStore'] at matching
    have still := grows.refines.frames left right related
    exact ⟨grown, .define .., matching.define still name like, .symbol name⟩
  · -- set!
    apply binding_mirrors simulates matching related
    intro grown name value value' later later' grows matching like
    apply Mirrors.record
    intro logged logged' sameStore sameStore'
    rw [← sameStore, ← sameStore'] at matching
    have still := grows.refines.frames left right related
    rcases Correspondence.rel_cases (matching.nearest? still name) with
      ⟨here, there⟩ | ⟨link, link', here, there, corresponding⟩
    · rw [Eval.bind_error (Eval.assign_none here), Eval.bind_error (Eval.assign_none there)]
      exact .error matching rfl
    · rw [Eval.bind_ok (Eval.assign_some here), Eval.bind_ok (Eval.assign_some there)]
      exact ⟨grown, .define .., matching.define corresponding name like, .symbol name⟩
  · -- begin
    next first rest => exact evaluateSequence_mirrors simulates rest first matching related
  · -- if
    next condition consequent alternative =>
      apply Mirrors.bind (simulates pairing condition left right machine machine' matching related)
      intro grown value value' later later' grows matching like
      have still := grows.refines.frames left right related
      have described := like.described_eq
      cases like with
      | boolean value =>
          cases value with
          | true => exact simulates grown consequent left right later later' matching still
          | false => exact simulates grown alternative left right later later' matching still
      | number | symbol | list | closure | primitive =>
          exact .error matching (by rw [described])
  · -- lambda
    next parameters body =>
      cases parametersOf parameters with
      | ok names => exact close_mirrors names body matching related
      | error fault => exact .error matching rfl
  · -- lambda-one
    next parameter body =>
      cases bindingName .lambdaOne parameter with
      | ok name => exact close_mirrors [name] body matching related
      | error fault => exact .error matching rfl
  · exact .error matching rfl

/-- One step of evaluation simulates itself if what evaluates the parts does. -/
theorem evaluateWith_simulates (simulates : Simulates inner) : Simulates (evaluateWith inner) := by
  intro pairing expression left right machine machine' matching related
  unfold evaluateWith
  split
  · exact .ok matching (.number _)
  · exact evaluateSymbol_mirrors .unboundVariable _ matching related
  · exact .error matching rfl
  · next head operands =>
      cases Keyword.ofHead? head with
      | some keyword => exact evaluateForm_mirrors simulates keyword operands matching related
      | none =>
          apply Mirrors.bind (evaluateOperator_mirrors simulates head matching related)
          intro grown callee callee' later later' grows matching like
          have still := grows.refines.frames left right related
          apply Mirrors.bind (evaluateOperands_mirrors simulates operands matching still)
          intro larger values values' last last' growsMore matching likeOperands
          exact applyWith_mirrors simulates head.text matching (like.refine growsMore.refines)
            likeOperands

end Steps

/-- The same expression runs alike in corresponding frames of matching stores. -/
theorem evaluate_simulates (fuel : Nat) : Simulates (evaluate fuel) := by
  induction fuel with
  | zero =>
      intro pairing expression left right machine machine' matching related
      exact .error matching rfl
  | succ fuel inductionHypothesis => exact evaluateWith_simulates inductionHypothesis

/-!
### Programs
-/

/-- Events that are logged on a fault do not matter: only the stores are compared. -/
theorem Mirrors.onFault {α β : Type} {pairing : Correspondence} {first second : Store}
    {good : Correspondence → α → β → Prop} {action : Eval α} {action' : Eval β}
    (event event' : Fault → Event) {machine machine' : Machine}
    (mirrors : Mirrors pairing first second good (action machine) (action' machine')) :
    Mirrors pairing first second good (action.onFault event machine)
      (action'.onFault event' machine') := by
  rcases mirrors.cases with ⟨left, right, later, later', grown, ending, ending', grows, matching, related⟩ |
    ⟨stop, later, later', grown, ending, ending', grows, matching⟩
  · simp only [Eval.onFault, ending, ending']
    exact ⟨grown, grows, matching, related⟩
  · simp only [Eval.onFault, ending, ending']
    cases stop <;> exact ⟨rfl, grown, grows, matching⟩

/-- Forms in order mirror each other, also where one of them fails. -/
theorem evaluateFormsFrom_mirrors (fuel : Nat) {left right : FrameId} :
    ∀ (forms : List Expr) (index : Nat) {pairing : Correspondence} {last last' : Value}
      {machine machine' : Machine}, pairing.Matches machine.store machine'.store →
        pairing.frames left right → Like pairing last last' →
          Mirrors pairing machine.store machine'.store Like
            (evaluateFormsFrom fuel left index last forms machine)
            (evaluateFormsFrom fuel right index last' forms machine')
  | [], _, _, _, _, _, _, matching, _, like => .ok matching like
  | form :: forms, index, pairing, _, _, machine, machine', matching, related, _ => by
      unfold evaluateFormsFrom
      apply Mirrors.bind
        (.onFault _ _ (evaluate_simulates fuel pairing form left right machine machine' matching related))
      intro grown value value' later later' grows matching like
      exact evaluateFormsFrom_mirrors fuel forms (index + 1) matching
        (grows.refines.frames left right related) like

end LexLisp
