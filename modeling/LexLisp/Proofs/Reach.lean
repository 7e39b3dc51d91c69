/-
Module: LexLisp.Proofs.Reach
Purpose: What an evaluation can get at. From a frame one reaches its parents and the frames captured by
  closures bound on the way. An evaluation writes only to frames that it can reach or makes, and what can be
  reached afterwards could be reached before or is new: the discipline of a region that is closed under
  reaching is lawful.
Main exports: Store.Reaches, rootsAfter, confinement, evaluate_confined
-/
import LexLisp.Proofs.WellFormed

namespace LexLisp

/-- The frames that can be reached from some frames: by parent links, and through closures that occur in what
    the frames bind. -/
inductive Store.Reaches (store : Store) (roots : FrameId → Prop) : FrameId → Prop where
  | root {frame : FrameId} (isRoot : roots frame) : Reaches store roots frame
  | parent {frame parent : FrameId} (reached : Reaches store roots frame)
      (link : store.parent? frame = some parent) : Reaches store roots parent
  | captured {frame : FrameId} {name : String} {value : Value} {closure : Closure}
      (reached : Reaches store roots frame) (bound : store.local? frame name = some value)
      (within : Value.Within (.closure closure) value) : Reaches store roots closure.home

/-- Where one starts after an evaluation: its frame, and what the closures in its value captured. -/
def rootsAfter (frame : FrameId) (outcome : Except Stop Value) (start : FrameId) : Prop :=
  start = frame ∨ ∃ value closure, outcome = .ok value ∧ Value.Within (.closure closure) value ∧
    closure.home = start

/-- What is reached from roots inside a closed region is inside. -/
theorem Store.Reaches.inside {store : Store} {roots region : FrameId → Prop}
    (fromRoots : ∀ frame, roots frame → region frame)
    (fromFrames : ∀ frame parent, region frame → store.parent? frame = some parent → region parent)
    (fromValues : ∀ frame name value, region frame → store.local? frame name = some value →
      value.Each fun closure => region closure.home)
    {frame : FrameId} (reached : store.Reaches roots frame) : region frame := by
  induction reached with
  | root isRoot => exact fromRoots _ isRoot
  | parent _ link inductionHypothesis => exact fromFrames _ _ inductionHypothesis link
  | captured _ bound within inductionHypothesis =>
      exact fromValues _ _ _ inductionHypothesis bound _ within

/-!
### The discipline of a region
-/

/-- Only a region of old frames may be touched, and the frames that are new since the store had so many. -/
def confinement (region : FrameId → Prop) (size : Nat) : Discipline where
  start := size
  watches frame := region frame ∨ size ≤ frame
  admits store _ frame := frame < store.size ∧ (region frame ∨ size ≤ frame)
  trusts store closure := store.Knows closure ∧ (region closure.home ∨ size ≤ closure.home)
  misses _ _ := True

theorem confinement_lawful (region : FrameId → Prop) (size : Nat) :
    (confinement region size).Lawful where
  watches_new _ new := Or.inr new
  admits_made admitted := admitted
  trusts_home trusted := ⟨trusted.1.1, trusted.2⟩
  admits_extends _ grown admitted := ⟨Nat.lt_of_lt_of_le admitted.1 grown.size_le, admitted.2⟩
  trusts_extends _ grown trusted := ⟨trusted.1.extends grown, trusted.2⟩
  admits_part _ admitted := admitted
  trusts_made _ _ admitted := ⟨⟨admitted.1, Nat.lt_succ_self _⟩, admitted.2⟩
  admits_body safe _ _ := ⟨by simp, Or.inr safe.started⟩
  misses_variable _ _ _ _ := trivial
  misses_assignment _ _ _ _ := trivial

theorem confinement_safe {store : Store} (wellFormed : store.WellFormed) (roots : FrameId → Prop) :
    (confinement (store.Reaches roots) store.size).Safe store where
  ordered := wellFormed.ordered
  started := Nat.le_refl _
  outwards frame parent watched link := by
    rcases watched with reached | new
    · exact Or.inl (.parent reached link)
    · exact absurd (Store.lt_size_of_parent? link) (Nat.not_lt.mpr new)
  trusted frame name value watched found := by
    intro closure within
    refine ⟨wellFormed.known frame name value found closure within, ?_⟩
    rcases watched with reached | new
    · exact Or.inl (.captured reached found within)
    · exact absurd (Store.lt_size_of_local? found) (Nat.not_lt.mpr new)

/-- What is reached from watched frames in a safe store is watched. -/
theorem Discipline.Safe.reaches_watched {region : FrameId → Prop} {size : Nat} {store : Store}
    (safe : (confinement region size).Safe store) {roots : FrameId → Prop}
    (fromRoots : ∀ frame, roots frame → region frame ∨ size ≤ frame) {frame : FrameId}
    (reached : store.Reaches roots frame) : region frame ∨ size ≤ frame := by
  apply reached.inside fromRoots safe.outwards
  intro other name value watched found
  exact (safe.trusted other name value watched found).mono fun _ trusted => trusted.2

/-- An evaluation leaves every frame as it is that it could not reach at the start, and gives access to no
    old frame that it could not reach. -/
theorem evaluate_confined {fuel : Nat} {expression : Expr} {frame : FrameId} {machine : Machine}
    {ending : Ending Value} (ended : evaluate fuel expression frame machine = ending)
    (wellFormed : machine.store.WellFormed) (made : frame < machine.store.size) :
    (∀ other, other < machine.store.size → ¬ machine.store.Reaches (· = frame) other →
      ending.store.frame? other = machine.store.frame? other) ∧
    ∀ other, ending.store.Reaches (rootsAfter frame ending.outcome) other →
      machine.store.Reaches (· = frame) other ∨ machine.store.size ≤ other := by
  have allows := Discipline.evaluate_respects
    (confinement_lawful (machine.store.Reaches (· = frame)) machine.store.size) fuel expression frame
    machine (confinement_safe wellFormed _) ⟨made, Or.inl (.root rfl)⟩
  rw [ended] at allows
  constructor
  · intro other otherMade unreached
    apply allows.keeps.untouched other otherMade
    intro watched
    rcases watched with reached | new
    · exact unreached reached
    · exact absurd otherMade (Nat.not_lt.mpr new)
  · intro other reached
    apply allows.keeps.safe.reaches_watched _ reached
    intro start isRoot
    rcases isRoot with rfl | ⟨value, closure, isValue, within, rfl⟩
    · exact Or.inl (.root rfl)
    · exact (allows.good_of_ok isValue closure within).2

end LexLisp
