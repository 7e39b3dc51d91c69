/-
Module: LexLisp.Proofs.Depth
Purpose: How deep chains of frames get. A call makes its frame inside the frame in which the procedure was
  made, so each frame on a chain stands for one procedure form around the next. Chains are therefore no deeper
  than procedure forms are nested in the text of the program, however deep its calls are.
Main exports: Expr.nesting, Expr.nestingAmong, layering, layering_lawful, depth_le_nesting
-/
import LexLisp.Proofs.Interruption

namespace LexLisp

/-!
### Nested procedure forms
-/

mutual

/-- How many forms that make procedures stand inside one another. Whether forms in quoted data are counted is
    left open: they are part of the text, but nothing evaluates them. -/
def Expr.nesting (inData : Bool) : Expr → Nat
  | .number _ => 0
  | .symbol _ => 0
  | .list [] => 0
  | .list (head :: operands) =>
    match Keyword.ofHead? head, operands with
    | some .lambda, [_, body] => body.nesting inData + 1
    | some .lambdaOne, [_, body] => body.nesting inData + 1
    | some .quote, operands => if inData then nestingAmong inData operands else 0
    | _, operands => max (head.nesting inData) (nestingAmong inData operands)

/-- The deepest nesting among some expressions. -/
def Expr.nestingAmong (inData : Bool) : List Expr → Nat
  | [] => 0
  | item :: items => max (item.nesting inData) (nestingAmong inData items)

end

example : (Expr.list [.symbol "lambda", .list [.symbol "x"],
    .list [.symbol "f", .list [.symbol "lambda-one", .symbol "y", .symbol "y"],
      .list [.symbol "quote", .list [.symbol "lambda", .list [], .symbol "x"]]]]).nesting false = 2 := by
  decide

namespace Expr

variable (inData : Bool)

theorem nesting_le_nestingAmong {item : Expr} {items : List Expr} (member : item ∈ items) :
    item.nesting inData ≤ nestingAmong inData items := by
  induction items with
  | nil => cases member
  | cons first rest inductionHypothesis =>
      rw [nestingAmong]
      rcases List.mem_cons.mp member with same | later
      · rw [same]
        exact Nat.le_max_left _ _
      · exact Nat.le_trans (inductionHypothesis later) (Nat.le_max_right _ _)

/-- A list that makes no procedure and quotes nothing is nested as deep as its elements. -/
theorem nesting_list_of_ne {head : Expr} {operands : List Expr}
    (plain : ∀ keyword ∈ Keyword.ofHead? head, keyword.Evaluates) :
    (list (head :: operands)).nesting inData = nestingAmong inData (head :: operands) := by
  cases named : Keyword.ofHead? head with
  | none => simp [nesting, nestingAmong, named]
  | some keyword =>
      obtain ⟨notQuote, notLambda, notLambdaOne⟩ := plain keyword named
      simp [nesting, nestingAmong, named, notQuote, notLambda, notLambdaOne]

/-- What an expression evaluates in its own frame is nested no deeper than the whole. -/
theorem nesting_le_of_part {whole part : Expr} (inside : Part whole part) :
    part.nesting inData ≤ whole.nesting inData := by
  obtain ⟨head, operands, same, member, plain⟩ := inside.element
  rw [same, nesting_list_of_ne inData plain]
  exact nesting_le_nestingAmong inData member

/-- A form that makes a procedure is one layer around the procedure's body. -/
theorem nesting_of_makes {expression body : Expr} {names : List String}
    (makes : Makes expression names body) :
    expression.nesting inData = body.nesting inData + 1 := by
  cases makes with
  | lambda named shape => simp [nesting, named]
  | lambdaOne named shape => simp [nesting, named]

end Expr

/-!
### The discipline of layers

In a frame of some depth only so much may be evaluated that the layers of procedure forms in it stay below the
bound, and a closure leaves room for its frame and the layers of its body.
-/

theorem Store.Extends.depth_eq {before after : Store} (grown : before.Extends after)
    (ordered : before.ParentsEarlier) {frame : FrameId} (made : frame < before.size) :
    after.depth frame = before.depth frame := by
  rw [Store.depth, Store.depth, grown.chain_eq ordered made]

/-- The frame of a call is one deeper than the frame of the procedure. -/
theorem Store.depth_enter {store : Store} (ordered : store.ParentsEarlier) {home : FrameId}
    (made : home < store.size) (names : List String) (values : List Value) :
    (store.enter home names values).2.depth store.size = store.depth home + 1 := by
  rw [Store.depth, Store.chain_enter ordered made, List.length_cons, Store.depth]

/-- Chains and the layers of procedure forms that may still come are together bounded. -/
def layering (inData : Bool) (bound : Nat) : Discipline where
  start := 0
  watches _ := True
  admits store expression frame :=
    frame < store.size ∧ store.depth frame + expression.nesting inData ≤ bound
  trusts store closure :=
    store.Knows closure ∧ store.depth closure.home + 1 + closure.body.nesting inData ≤ bound
  misses _ _ := True
  holds store := ∀ frame, frame < store.size → store.depth frame ≤ bound

/-- A store that grows by no frame stays within the bound. -/
theorem layering_holds_of_extends {inData : Bool} {bound : Nat} {before after : Store}
    (safe : (layering inData bound).Safe before) (grown : before.Extends after)
    (size_eq : after.size = before.size) : (layering inData bound).holds after := by
  intro frame made
  rw [size_eq] at made
  rw [grown.depth_eq safe.ordered made]
  exact safe.whole frame made

theorem layering_lawful (inData : Bool) (bound : Nat) : (layering inData bound).Lawful where
  watches_new _ _ := trivial
  admits_made admitted := ⟨admitted.1, trivial⟩
  trusts_home trusted := ⟨trusted.1.1, trivial⟩
  admits_extends ordered grown admitted := by
    refine ⟨Nat.lt_of_lt_of_le admitted.1 grown.size_le, ?_⟩
    rw [grown.depth_eq ordered admitted.1]
    exact admitted.2
  trusts_extends ordered grown trusted := by
    refine ⟨trusted.1.extends grown, ?_⟩
    rw [grown.depth_eq ordered trusted.1.1]
    exact trusted.2
  admits_part inside admitted := by
    have deeper := Expr.nesting_le_of_part inData inside
    exact ⟨admitted.1, Nat.le_trans (Nat.add_le_add_left deeper _) admitted.2⟩
  trusts_made {store expression names body frame} safe makes admitted := by
    refine ⟨⟨admitted.1, Nat.lt_succ_self _⟩, ?_⟩
    have room := admitted.2
    rw [Expr.nesting_of_makes inData makes] at room
    have still := (Store.Extends.close store).depth_eq safe.ordered admitted.1
    simp only [still]
    omega
  admits_body {store closure values} safe trusted _ := by
    refine ⟨by simp, ?_⟩
    rw [Store.depth_enter safe.ordered trusted.1.1]
    exact trusted.2
  misses_variable _ _ _ _ := trivial
  misses_assignment _ _ _ _ := trivial
  holds_define safe _ admitted _ :=
    layering_holds_of_extends safe (.define admitted.1 _ _) (Store.size_define ..)
  holds_assign {store head name body frame link value} safe _ _ found _ := by
    obtain ⟨_, bound⟩ := Store.mem_chain_of_nearest? found
    obtain ⟨old, oldBound⟩ := Option.isSome_iff_exists.mp bound
    exact layering_holds_of_extends safe (.define (Store.lt_size_of_local? oldBound) _ _)
      (Store.size_define ..)
  holds_enter {store closure values} safe trusted _ _ frame made := by
    have grown := Store.Extends.enter store closure.home closure.parameters values
    rw [Store.size_enter] at made
    rcases Nat.lt_or_ge frame store.size with old | new
    · rw [grown.depth_eq safe.ordered old]
      exact safe.whole frame old
    · have newest : frame = store.size := Nat.le_antisymm (Nat.le_of_lt_succ made) new
      have room := trusted.2
      rw [newest, Store.depth_enter safe.ordered trusted.1.1]
      omega
  holds_close {store expression names body frame} safe _ _ :=
    layering_holds_of_extends safe (.close store) rfl

/-!
### Whole programs
-/

theorem Store.Pristine.depth_eq {store : Store} (pristine : store.Pristine) {frame : FrameId}
    (made : frame < store.size) : store.depth frame = 1 := by
  have isGlobal := pristine.eq_globalFrame made
  have outermost : store.parent? frame = none := by
    rw [isGlobal]
    exact pristine.outermost
  rw [Store.depth, Store.chain_of_root made outermost, List.length_singleton]

/-- At the start nothing is deeper than the global frame. -/
theorem layering_safe {store : Store} (pristine : store.Pristine) (inData : Bool) (bound : Nat) :
    (layering inData (bound + 1)).Safe store where
  ordered := pristine.ordered
  started := Nat.zero_le _
  outwards _ _ _ _ := trivial
  trusted _ _ _ _ found := pristine.each found
  whole frame made := by
    rw [pristine.depth_eq made]
    exact Nat.le_add_left 1 bound

/-- Scope chains are as deep as the text of a program nests procedure forms, and no call makes them deeper: in
    every state of a run, wherever it is cut off and however it ends, each frame is at most one deeper than the
    nesting, and each closure leaves room for its own frame and for what its body nests. -/
theorem depth_le_nesting (inData : Bool) (cut : Cut) (fuel : Nat) (forms : List Expr) {machine : Machine}
    {store : Store} (pristine : machine.store.Pristine)
    (passed : Ending.store (evaluateFormsUntil cut fuel forms Store.globalFrame machine) = store) :
    (∀ frame, frame < store.size → store.depth frame ≤ Expr.nestingAmong inData forms + 1) ∧
    ∀ frame name value, store.local? frame name = some value → value.Each fun closure =>
      store.depth closure.home + 1 + closure.body.nesting inData ≤ Expr.nestingAmong inData forms + 1 := by
  have made : Store.globalFrame < machine.store.size := by
    rw [pristine.size_eq]
    exact Nat.zero_lt_one
  have admitted : ∀ form ∈ forms, (layering inData (Expr.nestingAmong inData forms + 1)).admits
      machine.store form Store.globalFrame := by
    intro form member
    have deeper := Expr.nesting_le_nestingAmong inData member
    refine ⟨made, ?_⟩
    rw [pristine.depth_eq made]
    omega
  have allows := Discipline.evaluateFormsUntil_allows (layering_lawful inData _) cut fuel
    (layering_safe pristine inData _) admitted
  have safe := allows.keeps.safe
  rw [passed] at safe
  refine ⟨safe.whole, ?_⟩
  intro frame name value found
  exact (safe.trusted frame name value trivial found).mono fun _ trusted => trusted.2

/-- A procedure that calls itself without end, stopped in its fifth call. Its frames are no deeper than the one
    form that makes it. -/
theorem depth_le_nesting_endless :
    let call : Expr := .list [.symbol "loop", .symbol "x"]
    let forms : List Expr :=
      [.list [.symbol "define", .symbol "loop", .list [.symbol "lambda-one", .symbol "x", call]],
        .list [.symbol "loop", .number 1]]
    let ending : Ending Value := evaluateForms 6 forms Store.globalFrame (.ofStore .fresh)
    Store.fresh.Pristine ∧ ending.store.size = 6 ∧ ending.outcome = .error .outOfFuel ∧
      ∀ frame, frame < ending.store.size → ending.store.depth frame ≤ 2 := by
  intro call forms ending
  have whole : evaluateFormsUntil Cut.never 6 forms Store.globalFrame (.ofStore .fresh) = ending := by
    rw [evaluateFormsUntil_never]
  have pristine : (Machine.ofStore .fresh).store.Pristine := Store.pristine_fresh
  have bounded := depth_le_nesting false Cut.never 6 forms pristine (congrArg Ending.store whole)
  exact ⟨pristine, by decide, rfl, bounded.1⟩

end LexLisp
