/-
Module: LexLisp.Proofs.Scope
Purpose: Which names an expression leaves to its surroundings, and what that promises. Where a name is bound
  outside every expression and every closure that leaves it free, no evaluation ever misses it: neither as a
  variable, nor as the target of an assignment, nor at the head of an application.
Main exports: Expr.freeNames, Store.Covers, Store.CoversClosures, scoping, evaluateAs_agrees,
  evaluate_scope_sound
-/
import LexLisp.Proofs.WellFormed

namespace LexLisp

/-!
### Free names
-/

mutual

/-- The names that an expression leaves free. A special form of a shape that its evaluation rejects leaves
    none free, since none of its operands is evaluated. -/
def Expr.freeNames : Expr → List String
  | .number _ => []
  | .symbol name => if (truth? name).isSome then [] else [name]
  | .list [] => []
  | .list (head :: operands) =>
    match Keyword.ofHead? head, operands with
    | some .define, [.symbol _, body] => body.freeNames
    | some .assign, [.symbol name, body] => name :: body.freeNames
    | some .sequence, operands => freeNamesAmong operands
    | some .conditional, [condition, consequent, alternative] =>
      condition.freeNames ++ consequent.freeNames ++ alternative.freeNames
    | some .lambda, [parameters, body] =>
      match parametersOf parameters with
      | .ok names => body.freeNames.filter (· ∉ names)
      | .error _ => []
    | some .lambdaOne, [.symbol name, body] => body.freeNames.filter (· ≠ name)
    | some _, _ => []
    | none, operands => head.freeNames ++ freeNamesAmong operands

/-- The names that some expressions leave free. -/
def Expr.freeNamesAmong : List Expr → List String
  | [] => []
  | item :: items => item.freeNames ++ freeNamesAmong items

end

example : (Expr.list [.symbol "lambda", .list [.symbol "x"],
    .list [.symbol "set!", .symbol "y", .list [.symbol "x", .symbol "#t", .symbol "z"]]]).freeNames =
      ["y", "z"] := by
  decide

namespace Expr

/-- What is free in one of several expressions is free among them. -/
theorem mem_freeNamesAmong {name : String} {item : Expr} {items : List Expr} (member : item ∈ items)
    (free : name ∈ item.freeNames) : name ∈ freeNamesAmong items := by
  induction items with
  | nil => cases member
  | cons first rest inductionHypothesis =>
      rw [freeNamesAmong, List.mem_append]
      rcases List.mem_cons.mp member with rfl | later
      · exact Or.inl free
      · exact Or.inr (inductionHypothesis later)

/-- A symbol that is no tag is free in itself. -/
theorem mem_freeNames_symbol {name : String} (plain : truth? name = none) :
    name ∈ (symbol name).freeNames := by
  simp [freeNames, plain]

/-- The target of an assignment is free, since it is searched for. -/
theorem mem_freeNames_assign {head body : Expr} {name : String}
    (named : Keyword.ofHead? head = some .assign) :
    name ∈ (list [head, symbol name, body]).freeNames := by
  simp [freeNames, named]

/-- What a part leaves free in the frame of the whole, the whole leaves free. -/
theorem mem_freeNames_of_part {name : String} {whole part : Expr} (inside : Part whole part)
    (free : name ∈ part.freeNames) : name ∈ whole.freeNames := by
  cases inside with
  | form named inForm =>
      cases inForm with
      | defined => simpa [freeNames, named] using free
      | assigned => simp [freeNames, named, free]
      | sequenced member => simpa [freeNames, named] using mem_freeNamesAmong member free
      | condition | consequent | alternative => simp [freeNames, named, free]
  | operator plain => simp [freeNames, plain, free]
  | operand plain member => simp [freeNames, plain, mem_freeNamesAmong member free]

/-- What the body of a procedure leaves free beyond the parameters, the expression that makes the procedure
    leaves free. -/
theorem mem_freeNames_of_makes {name : String} {expression body : Expr} {names : List String}
    (makes : Makes expression names body) (free : name ∈ body.freeNames) (other : name ∉ names) :
    name ∈ expression.freeNames := by
  cases makes with
  | lambda named shape => simp [freeNames, named, shape, free, other]
  | @lambdaOne head parameter body bound named shape =>
      cases parameter with
      | symbol written =>
          cases shape
          simpa [freeNames, named, free] using other
      | number | list => cases shape

end Expr

/-!
### The discipline of a name
-/

namespace Store

/-- An expression leaves a name free only where the name is bound. -/
def Covers (store : Store) (name : String) (expression : Expr) (frame : FrameId) : Prop :=
  name ∉ expression.freeNames ∨ store.Binds frame name

/-- A closure has the name as a parameter, or its body leaves it free only where the name is bound around the
    closure. -/
def CoversClosure (store : Store) (name : String) (closure : Closure) : Prop :=
  name ∈ closure.parameters ∨ store.Covers name closure.body closure.home

/-- All closures that are bound anywhere in the store, also within lists, cover the name. -/
def CoversClosures (store : Store) (name : String) : Prop :=
  ∀ frame bound value, store.local? frame bound = some value →
    value.Each (store.CoversClosure name)

/-- What covers a name goes on covering it while the store grows: no frame of a chain loses the name. -/
theorem Covers.extends {before after : Store} (ordered : before.ParentsEarlier)
    (grown : before.Extends after) {name : String} {expression : Expr} {frame : FrameId}
    (made : frame < before.size) (covered : before.Covers name expression frame) :
    after.Covers name expression frame :=
  covered.imp_right (grown.binds ordered made)

/-- The body of a covered closure is covered in the frame of a call: the frame binds the parameters, and
    behind it stands the frame of the closure. -/
theorem CoversClosure.body {store : Store} (ordered : store.ParentsEarlier) {name : String}
    {closure : Closure} (made : closure.home < store.size) (covered : store.CoversClosure name closure)
    {values : List Value} (counts : closure.parameters.length = values.length) :
    (store.enter closure.home closure.parameters values).2.Covers name closure.body store.size := by
  have chain := chain_enter ordered made closure.parameters values
  rcases covered with parameter | unused | bound
  · refine Or.inr ⟨store.size, ?_, bindsLocally_enter counts parameter⟩
    rw [chain]
    exact List.mem_cons_self
  · exact Or.inl unused
  · have grown := Extends.enter store closure.home closure.parameters values
    obtain ⟨link, member, here⟩ := grown.binds ordered made bound
    refine Or.inr ⟨link, ?_, here⟩
    rw [grown.chain_eq ordered made] at member
    rw [chain]
    exact List.mem_cons_of_mem _ member

end Store

/-- Nothing may be evaluated where it would miss the name. -/
def scoping (name : String) : Discipline where
  start := 0
  watches _ := True
  admits store expression frame := frame < store.size ∧ store.Covers name expression frame
  trusts store closure := store.Knows closure ∧ store.CoversClosure name closure
  misses _ missed := missed ≠ name

/-- The discipline is lawful: a parameter is bound in the frame of its call, and every other free name of a body is
    covered where the procedure was made. -/
theorem scoping_lawful (name : String) : (scoping name).Lawful where
  watches_new _ _ := trivial
  admits_made admitted := ⟨admitted.1, trivial⟩
  trusts_home trusted := ⟨trusted.1.1, trivial⟩
  admits_extends ordered grown admitted :=
    ⟨Nat.lt_of_lt_of_le admitted.1 grown.size_le, admitted.2.extends ordered grown admitted.1⟩
  trusts_extends ordered grown trusted :=
    ⟨trusted.1.extends grown, trusted.2.imp_right fun covered =>
      covered.extends ordered grown trusted.1.1⟩
  admits_part inside admitted := by
    refine ⟨admitted.1, admitted.2.imp_left ?_⟩
    intro unused free
    exact unused (Expr.mem_freeNames_of_part inside free)
  trusts_made {store expression names body frame} safe makes admitted := by
    refine ⟨⟨admitted.1, Nat.lt_succ_self _⟩, ?_⟩
    by_cases parameter : name ∈ names
    · exact Or.inl parameter
    · have inside : store.Covers name body frame := by
        refine admitted.2.imp_left ?_
        intro unused free
        exact unused (Expr.mem_freeNames_of_makes makes free parameter)
      exact Or.inr (inside.extends safe.ordered (.close store) admitted.1)
  admits_body safe trusted counts := ⟨by simp, trusted.2.body safe.ordered trusted.1.1 counts⟩
  misses_variable _ admitted plain unbound := by
    rintro rfl
    exact admitted.2.elim (fun unused => unused (Expr.mem_freeNames_symbol plain)) unbound
  misses_assignment _ named admitted unbound := by
    rintro rfl
    exact admitted.2.elim (fun unused => unused (Expr.mem_freeNames_assign named)) unbound

/-- A well-formed store whose closures cover the name keeps to its discipline, and the other way round. -/
theorem scoping_safe_iff {name : String} {store : Store} :
    (scoping name).Safe store ↔ store.WellFormed ∧ store.CoversClosures name := by
  constructor
  · intro safe
    refine ⟨⟨safe.ordered, ?_⟩, ?_⟩
    · intro frame bound value found
      exact (safe.trusted frame bound value trivial found).mono fun _ trusted => trusted.1
    · intro frame bound value found
      exact (safe.trusted frame bound value trivial found).mono fun _ trusted => trusted.2
  · rintro ⟨wellFormed, covered⟩
    refine ⟨wellFormed.ordered, Nat.zero_le _, fun _ _ _ _ => trivial, ?_, trivial⟩
    intro frame bound value _ found closure within
    exact ⟨wellFormed.known frame bound value found closure within,
      covered frame bound value found closure within⟩

/-- What the discipline of a name promises of an ending. -/
theorem scoping_outcome {name : String} {before : Store} {ending : Ending Value}
    (allows : (scoping name).Allows before
      (fun value store => value.Each ((scoping name).trusts store)) ending) :
    ending.outcome ≠ .error (.fault (.unboundVariable name)) ∧ ending.store.CoversClosures name ∧
      ∀ value, ending.outcome = .ok value → value.Each (ending.store.CoversClosure name) := by
  refine ⟨?_, (scoping_safe_iff.mp allows.keeps.safe).2, ?_⟩
  · intro stopped
    exact allows.misses_of_error stopped rfl
  · intro value yielded
    exact (allows.good_of_ok yielded).mono fun _ trusted => trusted.2

/-!
### Two reports of a missing head

Evaluation reports an unbound name at the head of an application and a head that cannot be applied alike. To
say that the first never happens to a name, it is compared with an evaluation that reports the first as an
unbound variable. The two do the same otherwise.
-/

/-- Two actions that differ at most in what they call a missing name. -/
def Agree {α : Type} (missing missing' : String → Fault) (action action' : Eval α) : Prop :=
  ∀ machine, action machine = action' machine ∨
    ∃ name later, action machine = .error (.fault (missing name)) later ∧
      action' machine = .error (.fault (missing' name)) later

namespace Agree

variable {missing missing' : String → Fault} {α β : Type}

theorem refl (action : Eval α) : Agree missing missing' action action :=
  fun _ => Or.inl rfl

/-- Two actions in sequence: where the first parts differ, both stop there. -/
theorem bind {action action' : Eval α} {next next' : α → Eval β}
    (first : Agree missing missing' action action')
    (second : ∀ value, Agree missing missing' (next value) (next' value)) :
    Agree missing missing' (action >>= next) (action' >>= next') := by
  intro machine
  rcases first machine with same | ⟨name, later, here, there⟩
  · cases ending : action' machine with
    | ok value later =>
        rw [Eval.bind_ok (same.trans ending), Eval.bind_ok ending]
        exact second value later
    | error stop later =>
        rw [Eval.bind_error (same.trans ending), Eval.bind_error ending]
        exact Or.inl rfl
  · rw [Eval.bind_error here, Eval.bind_error there]
    exact Or.inr ⟨name, later, rfl, rfl⟩

end Agree

/-- To agree is a congruence: each basic action agrees with itself. -/
theorem Agree.congruence (missing missing' : String → Fault) : Eval.Congruence (Agree missing missing') :=
  .of_refl .refl .bind

/-- A symbol that is no tag is found on both sides, or missed on both and called differently. -/
theorem evaluateSymbol_agrees (missing missing' : String → Fault) (name : String) (frame : FrameId) :
    Agree missing missing' (evaluateSymbol missing name frame) (evaluateSymbol missing' name frame) := by
  unfold evaluateSymbol
  cases truth? name with
  | some value => exact .refl _
  | none =>
      intro machine
      cases found : machine.store.lookup? frame name with
      | some value => exact Or.inl ((Eval.lookup_some found).trans (Eval.lookup_some found).symm)
      | none => exact Or.inr ⟨name, machine, Eval.lookup_none found, Eval.lookup_none found⟩

/-- What a missing head is called makes no other difference. -/
theorem evaluateAs_agrees (missing missing' : String → Fault) (fuel : Nat) (expression : Expr)
    (frame : FrameId) :
    Agree missing missing' (evaluateAs missing fuel expression frame)
      (evaluateAs missing' fuel expression frame) := by
  have cut : ∀ expression frame, Agree missing missing' (throw .outOfFuel) (evaluateAs missing' 0 expression frame) :=
    fun _ _ => .refl _
  exact evaluateAs_congr (Agree.congruence missing missing') (evaluateSymbol_agrees missing missing') cut fuel
    expression frame

/-- Static scope is sound for each name. Where an expression is evaluated in a frame that binds the name or
    the expression does not leave it free, and all closures of the store cover the name, no search for the
    name fails: the evaluation does not end with the name unbound, also if a missing head is reported that
    way, which is the only difference between the two evaluations. And the closures cover it afterwards. -/
theorem evaluate_scope_sound {name : String} {fuel : Nat} {expression : Expr} {frame : FrameId}
    {machine : Machine} {ending told : Ending Value}
    (ended : evaluate fuel expression frame machine = ending)
    (toldEnded : evaluateAs .unboundVariable fuel expression frame machine = told)
    (wellFormed : machine.store.WellFormed) (made : frame < machine.store.size)
    (covered : machine.store.Covers name expression frame)
    (closuresCovered : machine.store.CoversClosures name) :
    ending.outcome ≠ .error (.fault (.unboundVariable name)) ∧
    told.outcome ≠ .error (.fault (.unboundVariable name)) ∧
    (told = ending ∨ told.machine = ending.machine ∧ ∃ missed, missed ≠ name ∧
      told.outcome = .error (.fault (.unboundVariable missed)) ∧
        ending.outcome = .error (.fault (.unknownOperator missed))) ∧
    ending.store.CoversClosures name ∧
    ∀ value, ending.outcome = .ok value → value.Each (ending.store.CoversClosure name) := by
  have safe := scoping_safe_iff.mpr ⟨wellFormed, closuresCovered⟩
  have admitted : (scoping name).admits machine.store expression frame := ⟨made, covered⟩
  have truthful : Discipline.Truthful .unboundVariable := by
    intro missed reported same
    cases same
    rfl
  have allowed := Discipline.evaluate_respects (scoping_lawful name) fuel expression frame machine safe
    admitted
  have toldAllowed := Discipline.evaluateAs_respects truthful (scoping_lawful name) fuel expression frame
    machine safe admitted
  rw [ended] at allowed
  rw [toldEnded] at toldAllowed
  obtain ⟨bound, stillCovered, valueCovered⟩ := scoping_outcome allowed
  have toldBound := (scoping_outcome toldAllowed).1
  refine ⟨bound, toldBound, ?_, stillCovered, valueCovered⟩
  have agrees := evaluateAs_agrees .unboundVariable .unknownOperator fuel expression frame machine
  rw [evaluateAs_unknownOperator, ended, toldEnded] at agrees
  rcases agrees with same | ⟨missed, later, rfl, rfl⟩
  · exact Or.inl same
  · refine Or.inr ⟨rfl, missed, ?_, rfl, rfl⟩
    rintro rfl
    exact toldBound rfl

/-- A procedure whose body has a free name that only the frame of the procedure binds is called from the
    global frame. The name is found, since its frame stands around the procedure and not around the call. -/
theorem evaluate_scope_sound_lexical :
    let opened : Store := (Store.fresh.enter Store.globalFrame ["x"] [.symbol "a"]).2
    let made : Store := { opened with closures := 1 }
    let store : Store := made.define Store.globalFrame "f" (.closure ⟨0, ["y"], .symbol "x", 1⟩)
    let call : Expr := .list [.symbol "f", .list [.symbol "quote", .symbol "b"]]
    let ending : Ending Value := evaluate 2 call Store.globalFrame ⟨store, #[]⟩
    store.CoversClosures "x" ∧ ¬ store.Binds Store.globalFrame "x" ∧
      ending.outcome = .ok (.symbol "a") ∧
        ending.outcome ≠ .error (.fault (.unboundVariable "x")) ∧ ending.store.CoversClosures "x" := by
  intro opened made store call ending
  have wellFormed : opened.WellFormed := by
    apply Store.wellFormed_fresh.enter (by decide)
    intro value member closure within
    rw [List.mem_singleton.mp member] at within
    cases within
  have noClosure : ∀ frame name value, made.local? frame name = some value →
      ∀ closure, ¬ Value.Within (.closure closure) value := by
    intro frame name value found closure within
    have issued : closure.identity < 0 := (wellFormed.known frame name value found closure within).2
    exact absurd issued (Nat.not_lt_zero _)
  have captured : store.Binds 1 "x" := ⟨1, by decide, by decide⟩
  have unbound : ¬ store.Binds Store.globalFrame "x" := by
    rintro ⟨link, member, here⟩
    have same : link = Store.globalFrame := List.mem_singleton.mp member
    rw [same] at here
    exact absurd here (by decide)
  have found : ∀ {frame name value}, store.local? frame name = some value →
      ∀ closure, Value.Within (.closure closure) value → closure = ⟨0, ["y"], .symbol "x", 1⟩ := by
    intro frame name value bound closure within
    rw [Store.local?_define (by decide)] at bound
    split at bound
    · cases bound
      cases within
      rfl
    · exact absurd within (noClosure frame name value bound closure)
  have covered : store.CoversClosures "x" := by
    intro frame name value bound closure within
    rw [found bound closure within]
    exact Or.inr (Or.inr captured)
  have stillWellFormed : store.WellFormed := by
    refine ⟨wellFormed.ordered.define _ _ _, ?_⟩
    intro frame name value bound closure within
    rw [found bound closure within]
    exact ⟨by decide, by decide⟩
  have ended : evaluate 2 call Store.globalFrame ⟨store, #[]⟩ = ending := rfl
  have sound := evaluate_scope_sound ended rfl stillWellFormed (by decide) (Or.inl (by decide)) covered
  exact ⟨covered, unbound, rfl, sound.1, sound.2.2.2.1⟩

end LexLisp
