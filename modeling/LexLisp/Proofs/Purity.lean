/-
Module: LexLisp.Proofs.Purity
Purpose: Expressions that only read. Where neither an expression nor the body of any closure in the store defines or
  assigns, an evaluation leaves every frame as it was and only adds frames, and it makes only closures that again
  neither define nor assign. So a second evaluation finds what the first one found, though its frames and closures
  are others, and shows the same.
Main exports: Expr.ReadsOnly, observation, observation_lawful, Store.itself, evaluate_pure
-/
import LexLisp.Proofs.Anatomy
import LexLisp.Proofs.Isolation

namespace LexLisp

/-- No form in an expression defines or assigns, quoted data apart. -/
def Expr.ReadsOnly (expression : Expr) : Prop :=
  .define ∉ expression.keywords ∧ .assign ∉ expression.keywords

instance (expression : Expr) : Decidable expression.ReadsOnly :=
  inferInstanceAs (Decidable (_ ∧ _))

/-- An expression with no keywords but those of one that only reads only reads. -/
theorem Expr.ReadsOnly.of_subset {whole part : Expr} (readsOnly : whole.ReadsOnly)
    (fewer : part.keywords ⊆ whole.keywords) : part.ReadsOnly :=
  ⟨fun present => readsOnly.1 (fewer present), fun present => readsOnly.2 (fewer present)⟩

/-- The body of a closure only reads. -/
def Closure.ReadsOnly (closure : Closure) : Prop :=
  closure.body.ReadsOnly

/-!
### The discipline of reading
-/

/-- Only what reads may be evaluated, and the frames of the first store stay as they are. -/
def observation (first : Store) : Discipline where
  start := first.size
  watches _ := True
  admits store expression frame := frame < store.size ∧ expression.ReadsOnly
  trusts store closure := store.Knows closure ∧ closure.ReadsOnly
  misses _ _ := True
  holds store := ∀ frame, frame < first.size → store.frame? frame = first.frame? frame

/-- The discipline is lawful: new frames are not among those that are observed, and no body that is called writes. -/
theorem observation_lawful (first : Store) : (observation first).Lawful where
  watches_new _ _ := trivial
  admits_made admitted := ⟨admitted.1, trivial⟩
  trusts_home trusted := ⟨trusted.1.1, trivial⟩
  admits_extends _ grown admitted := ⟨Nat.lt_of_lt_of_le admitted.1 grown.size_le, admitted.2⟩
  trusts_extends _ grown trusted := ⟨trusted.1.extends grown, trusted.2⟩
  admits_part inside admitted := ⟨admitted.1, admitted.2.of_subset (Expr.keywords_subset_of_part inside)⟩
  trusts_made _ makes admitted :=
    ⟨⟨admitted.1, Nat.lt_succ_self _⟩, admitted.2.of_subset (Expr.keywords_subset_of_makes makes)⟩
  admits_body _ trusted _ := ⟨by simp, trusted.2⟩
  misses_variable _ _ _ _ := trivial
  misses_assignment _ _ _ _ := trivial
  holds_define _ named admitted _ := absurd (Expr.mem_keywords_of_named named _) admitted.2.1
  holds_assign _ named admitted _ _ := absurd (Expr.mem_keywords_of_named named _) admitted.2.2
  holds_enter safe _ _ _ frame old := by
    rw [Store.frame?_enter_of_lt (Nat.lt_of_lt_of_le old safe.started)]
    exact safe.whole frame old
  holds_close safe _ _ := safe.whole

theorem observation_safe {store : Store} (wellFormed : store.WellFormed) (bodies : store.Each Closure.ReadsOnly) :
    (observation store).Safe store where
  ordered := wellFormed.ordered
  started := Nat.le_refl _
  outwards _ _ _ _ := trivial
  trusted frame name value _ found closure within :=
    ⟨wellFormed.known frame name value found closure within, bodies frame name value found closure within⟩
  whole _ _ := rfl

/-!
### A second evaluation

The frames and closures of a store stand for themselves in every store that has these frames unchanged. What was
added beside them corresponds to nothing, and need not: it cannot be reached from the old frames.
-/

/-- Each frame and each identity that a store has made stands for itself. -/
def Store.itself (store : Store) : Correspondence where
  frames left right := left = right ∧ left < store.size
  identities left right := left = right ∧ left < store.closures

/-- A value of known closures is like itself. -/
theorem like_itself {store : Store} {value : Value} (known : store.KnowsAll value) :
    Like store.itself value value := by
  have akin : Akin store.itself.kinship value value := by
    apply akin_self
    intro closure within
    obtain ⟨made, issued⟩ := known closure within
    exact .closure closure.parameters closure.body ⟨rfl, issued⟩ ⟨rfl, made⟩
  exact akin.like trivial fun _ _ like => like

theorem Store.WellFormed.matches_itself {before after : Store} (wellFormed : before.WellFormed)
    (ordered : after.ParentsEarlier) (grown : before.Extends after)
    (unchanged : ∀ frame, frame < before.size → after.frame? frame = before.frame? frame) :
    before.itself.Matches before after where
  frame_functional related related' := related.1.symm.trans related'.1
  frame_injective related related' := related.1.trans related'.1.symm
  identity_functional related related' := related.1.symm.trans related'.1
  identity_injective related related' := related.1.trans related'.1.symm
  made := by
    rintro frame _ ⟨rfl, made⟩
    exact ⟨made, Nat.lt_of_lt_of_le made grown.size_le⟩
  issued := by
    rintro identity _ ⟨rfl, issued⟩
    exact ⟨issued, Nat.lt_of_lt_of_le issued grown.closures_le⟩
  parents := by
    rintro frame _ ⟨rfl, made⟩
    rw [grown.parent?_eq frame made]
    cases link : before.parent? frame with
    | none => exact .none
    | some parent => exact .some ⟨rfl, Nat.lt_trans (wellFormed.ordered frame parent link) made⟩
  bindings := by
    rintro frame _ ⟨rfl, made⟩ name
    rw [Store.local?_congr (unchanged frame made)]
    cases found : before.local? frame name with
    | none => exact .none
    | some value => exact .some (like_itself (wellFormed.known frame name value found))
  ordered_first := wellFormed.ordered
  ordered_second := ordered

/-- An expression that only reads, in a store whose closures only read, is pure: whether it yields a value, fails or
    is cut off, all frames that were there are unchanged and none is lost, the closures in the store and in the
    value again only read, and evaluating the expression once more in the store that it left shows the same
    value or fails for the same reason. -/
theorem evaluate_pure {fuel : Nat} {expression : Expr} {frame : FrameId} {machine : Machine}
    {ending : Ending Value} (ended : evaluate fuel expression frame machine = ending)
    (wellFormed : machine.store.WellFormed) (made : frame < machine.store.size) (readsOnly : expression.ReadsOnly)
    (bodies : machine.store.Each Closure.ReadsOnly) :
    machine.store.size ≤ ending.store.size ∧
    (∀ link, link < machine.store.size → ending.store.frame? link = machine.store.frame? link) ∧
    ending.store.Each Closure.ReadsOnly ∧
    (∀ value, ending.outcome = .ok value → value.Each Closure.ReadsOnly) ∧
    ∀ log, shown (Ending.outcome (evaluate fuel expression frame ⟨ending.store, log⟩)) = shown ending.outcome := by
  have allows := Discipline.evaluate_respects (observation_lawful machine.store) fuel expression frame machine
    (observation_safe wellFormed bodies) ⟨made, readsOnly⟩
  rw [ended] at allows
  have kept := allows.keeps
  refine ⟨kept.grown.size_le, kept.safe.whole, ?_, ?_, ?_⟩
  · intro link name value found
    exact (kept.safe.trusted link name value trivial found).mono fun _ trusted => trusted.2
  · intro value yielded
    exact (allows.good_of_ok yielded).mono fun _ trusted => trusted.2
  · intro log
    have matching := wellFormed.matches_itself kept.safe.ordered kept.grown kept.safe.whole
    have mirrors := evaluate_simulates fuel machine.store.itself expression frame frame machine
      ⟨ending.store, log⟩ matching ⟨rfl, made⟩
    obtain ⟨_, _, _, like⟩ := mirrors.outcomes
    rw [ended] at like
    exact like.shown_eq.symm

/-- A stored procedure that makes a procedure. Each call makes a frame and a closure of its own, and the two closures
    show alike. -/
theorem evaluate_pure_maker :
    let body : Expr := .list [.symbol "lambda", .list [.symbol "y"], .symbol "x"]
    let store : Store :=
      Store.define { Store.fresh with closures := 1 } Store.globalFrame "f" (.closure ⟨0, ["x"], body, 0⟩)
    let expression : Expr := .list [.symbol "f", .symbol "#t"]
    let ending : Ending Value := evaluate 2 expression Store.globalFrame (.ofStore store)
    store.WellFormed ∧ expression.ReadsOnly ∧ store.Each Closure.ReadsOnly ∧ ending.store.size = 2 ∧
      ending.store.frame? Store.globalFrame = store.frame? Store.globalFrame ∧
        ∀ log, shown (Ending.outcome (evaluate 2 expression Store.globalFrame ⟨ending.store, log⟩)) =
          .ok ("#<closure (y)>", "procedure") := by
  intro body store expression ending
  have counted : Store.WellFormed { Store.fresh with closures := 1 } :=
    existence_safe_iff.mp
      (existence_lawful.keeps_close (existence_safe_iff.mpr Store.wellFormed_fresh) trivial).safe
  have one : Store.globalFrame < Store.size { Store.fresh with closures := 1 } := Store.rooted_fresh.made
  have known : Store.Knows { Store.fresh with closures := 1 } ⟨0, ["x"], body, 0⟩ := ⟨one, Nat.zero_lt_one⟩
  have wellFormed : store.WellFormed := counted.define one "f" ((Value.each_closure _).mpr known)
  have none : Store.Each Closure.ReadsOnly { Store.fresh with closures := 1 } := Store.each_fresh
  have bodies : store.Each Closure.ReadsOnly :=
    none.define Store.globalFrame "f" ((Value.each_closure _).mpr (by decide : body.ReadsOnly))
  have readsOnly : expression.ReadsOnly := by decide
  have pure := @evaluate_pure 2 expression Store.globalFrame (.ofStore store) ending rfl wellFormed (by decide)
    readsOnly bodies
  refine ⟨wellFormed, readsOnly, bodies, by decide, pure.2.1 Store.globalFrame (by decide), ?_⟩
  intro log
  rw [pure.2.2.2.2 log]
  rfl

end LexLisp
