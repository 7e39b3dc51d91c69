/-
Module: LexLisp.Proofs.Equality
Purpose: When two values are equal. Numbers are compared as numbers, closures by their identities and lists element by
  element, so a value equals itself unless something in it is not a number; but for that, equality is an equivalence.
  Equal values print alike: the two zeros, which are the only different numbers that are equal, have one text, and an
  identity names one closure. Trees are equal exactly where they are equal as data.
Main exports: Value.Same, Value.same_iff, Value.HoldsNaN, Value.same_self_iff, Value.same_ofDatum,
  Value.AgreeOnClosures, Value.Same.text_eq, value_equality
-/
import LexLisp.Proofs.Decimal.Display
import LexLisp.Proofs.Identity

namespace LexLisp

/-!
### Numbers
-/

/-- A number equals itself, and what is not a number does not. -/
theorem beq_self_iff_isNaN (number : Float) : (number == number) = true ↔ number.isNaN = false := by
  rw [Float.beq_self_iff, Float.isNaN_eq_decide_eq_nan, decide_eq_false_iff_not]

/-- Numbers that are equal are displayed alike: they are one number, or both are zero. -/
theorem displayNumber_eq_of_beq {first second : Float} (equal : (first == second) = true) :
    displayNumber first = displayNumber second := by
  have positive : displayNumber 0 = "0" :=
    displayNumber_zero (show Binary64.ofFloat 0 = .finite false 0 (-1074) by decide)
  have negative : displayNumber (-0) = "0" :=
    displayNumber_zero (show Binary64.ofFloat (-0) = .finite true 0 (-1074) by decide)
  obtain ⟨_, _, rfl | ⟨rfl, rfl⟩ | ⟨rfl, rfl⟩⟩ := Float.beq_iff_ne_nan_and_eq.mp equal
  · rfl
  · rw [positive, negative]
  · rw [positive, negative]

namespace Value

/-!
### Equality as a relation
-/

mutual

/-- Equality of values, with one rule for each kind of them. -/
inductive Same : Value → Value → Prop where
  | number {first second : Float} (equal : (first == second) = true) : Same (.number first) (.number second)
  | symbol (name : String) : Same (.symbol name) (.symbol name)
  | boolean (value : Bool) : Same (.boolean value) (.boolean value)
  | list {firsts seconds : List Value} (items : SameItems firsts seconds) : Same (.list firsts) (.list seconds)
  | closure {first second : Closure} (identity : first.identity = second.identity) :
      Same (.closure first) (.closure second)
  | primitive (operation : Primitive) : Same (.primitive operation) (.primitive operation)

/-- Equality of lists, element by element. -/
inductive SameItems : List Value → List Value → Prop where
  | nil : SameItems [] []
  | cons {first second : Value} {firsts seconds : List Value} (head : Same first second)
      (tail : SameItems firsts seconds) : SameItems (first :: firsts) (second :: seconds)

end

mutual

/-- What the comparison calls equal is the same, constructor by constructor. -/
theorem Same.of_same : ∀ {first second : Value}, same first second = true → Same first second
  | .number _, .number _, equal => .number equal
  | .symbol _, .symbol _, equal => by
      rw [same, beq_iff_eq] at equal
      exact equal ▸ .symbol _
  | .boolean _, .boolean _, equal => by
      rw [same, beq_iff_eq] at equal
      exact equal ▸ .boolean _
  | .list _, .list _, equal => .list (SameItems.of_sameItems equal)
  | .closure _, .closure _, equal => .closure (beq_iff_eq.mp equal)
  | .primitive _, .primitive _, equal => by
      rw [same, beq_iff_eq] at equal
      exact equal ▸ .primitive _

theorem SameItems.of_sameItems : ∀ {firsts seconds : List Value}, sameItems firsts seconds = true →
    SameItems firsts seconds
  | [], [], _ => .nil
  | _ :: _, _ :: _, equal => by
      rw [sameItems, Bool.and_eq_true] at equal
      exact .cons (.of_same equal.1) (.of_sameItems equal.2)

end

mutual

/-- What is the same is called equal by the comparison. -/
theorem Same.same_eq {first second : Value} (related : Same first second) : same first second = true := by
  cases related with
  | number equal => exact equal
  | symbol name => exact beq_self_eq_true name
  | boolean value => exact beq_self_eq_true value
  | list items => exact items.sameItems_eq
  | closure identity => exact beq_iff_eq.mpr identity
  | primitive operation => exact beq_self_eq_true operation

theorem SameItems.sameItems_eq {firsts seconds : List Value} (related : SameItems firsts seconds) :
    sameItems firsts seconds = true := by
  cases related with
  | nil => rfl
  | cons head tail => rw [sameItems, head.same_eq, tail.sameItems_eq, Bool.and_true]

end

/-- The comparison decides the relation. -/
theorem same_iff {first second : Value} : (first == second) = true ↔ Same first second :=
  ⟨.of_same, Same.same_eq⟩

/-!
### A partial equivalence
-/

mutual

/-- Sameness can be read from right to left. -/
theorem Same.symm {first second : Value} (related : Same first second) : Same second first := by
  cases related with
  | number equal => exact .number (PartialEquivBEq.symm equal)
  | symbol name => exact .symbol name
  | boolean value => exact .boolean value
  | list items => exact .list items.symm
  | closure identity => exact .closure identity.symm
  | primitive operation => exact .primitive operation

theorem SameItems.symm {firsts seconds : List Value} (related : SameItems firsts seconds) :
    SameItems seconds firsts := by
  cases related with
  | nil => exact .nil
  | cons head tail => exact .cons head.symm tail.symm

end

mutual

/-- Sameness carries over: floating-point numbers that are equal to one number are equal to each other. -/
theorem Same.trans {first second third : Value} (early : Same first second) (late : Same second third) :
    Same first third := by
  cases early with
  | number equal =>
      cases late with
      | number equalLater => exact .number (PartialEquivBEq.trans equal equalLater)
  | symbol name => exact late
  | boolean value => exact late
  | list items =>
      cases late with
      | list itemsLater => exact .list (items.trans itemsLater)
  | closure identity =>
      cases late with
      | closure identityLater => exact .closure (identity.trans identityLater)
  | primitive operation => exact late

theorem SameItems.trans {firsts seconds thirds : List Value} (early : SameItems firsts seconds)
    (late : SameItems seconds thirds) : SameItems firsts thirds := by
  cases early with
  | nil => exact late
  | cons head tail =>
      cases late with
      | cons headLater tailLater => exact .cons (head.trans headLater) (tail.trans tailLater)

end

instance : PartialEquivBEq Value where
  symm equal := same_iff.mpr (same_iff.mp equal).symm
  trans early late := same_iff.mpr ((same_iff.mp early).trans (same_iff.mp late))

/-- Something that is not a number occurs in a value, at any depth of lists. -/
def HoldsNaN (value : Value) : Prop :=
  ∃ number : Float, number.isNaN = true ∧ Within (.number number) value

/-- A list holds a NaN if an element does. -/
theorem holdsNaN_list {items : List Value} : (Value.list items).HoldsNaN ↔ ∃ item ∈ items, item.HoldsNaN := by
  constructor
  · rintro ⟨number, isNaN, within⟩
    cases within with
    | inside member deeper => exact ⟨_, member, number, isNaN, deeper⟩
  · rintro ⟨item, member, number, isNaN, deeper⟩
    exact ⟨number, isNaN, .inside member deeper⟩

mutual

/-- A value equals itself if everything in it is a number that should be one. -/
theorem Same.of_not_holdsNaN : ∀ {value : Value}, ¬ value.HoldsNaN → Same value value
  | .number amount, free => by
      apply Same.number
      rw [beq_self_iff_isNaN, Bool.eq_false_iff]
      exact fun isNaN => free ⟨amount, isNaN, .whole⟩
  | .symbol name, _ => .symbol name
  | .boolean value, _ => .boolean value
  | .list items, free => .list (SameItems.of_not_holdsNaN fun item member holds =>
      free (holdsNaN_list.mpr ⟨item, member, holds⟩))
  | .closure _, _ => .closure rfl
  | .primitive operation, _ => .primitive operation

theorem SameItems.of_not_holdsNaN : ∀ {items : List Value}, (∀ item ∈ items, ¬ item.HoldsNaN) →
    SameItems items items
  | [], _ => .nil
  | _ :: _, free => by
      obtain ⟨head, tail⟩ := List.forall_mem_cons.mp free
      exact .cons (.of_not_holdsNaN head) (.of_not_holdsNaN tail)

end

/-- Each element of a list that is the same as itself is the same as itself. -/
theorem SameItems.same_of_mem {items : List Value} (related : SameItems items items) :
    ∀ item ∈ items, Same item item := by
  induction items with
  | nil => exact fun _ member => nomatch member
  | cons first rest inductionHypothesis =>
      cases related with
      | cons head tail => exact List.forall_mem_cons.mpr ⟨head, inductionHypothesis tail⟩

/-- What is in a value that equals itself equals itself. -/
theorem Same.within {part value : Value} (within : Within part value) (related : Same value value) :
    Same part part := by
  induction within with
  | whole => exact related
  | inside member _ inductionHypothesis =>
      cases related with
      | list items => exact inductionHypothesis (items.same_of_mem _ member)

/-- A value equals itself unless something in it is not a number. -/
theorem same_self_iff (value : Value) : (value == value) = true ↔ ¬ value.HoldsNaN := by
  rw [same_iff]
  constructor
  · rintro related ⟨number, isNaN, within⟩
    cases related.within within with
    | number equal =>
        rw [beq_self_iff_isNaN, isNaN] at equal
        cases equal
  · exact .of_not_holdsNaN

/-!
### Trees and data
-/

/-- The tags are two names. -/
theorem truth?_eq_some_iff {name : String} {value : Bool} : truth? name = some value ↔ name = tag value := by
  unfold truth? tag
  cases value <;> grind

/-- Two symbols are one as data only if they are one as trees: the tags alone become truth values. -/
theorem same_ofDatum_symbol (first second : String) :
    same (ofDatum (.symbol first)) (ofDatum (.symbol second)) = (first == second) := by
  simp only [ofDatum]
  cases tagged : truth? first with
  | some value =>
      cases tagged' : truth? second with
      | some value' =>
          rw [truth?_eq_some_iff] at tagged tagged'
          rw [tagged, tagged']
          cases value <;> cases value' <;> decide
      | none =>
          have different : first ≠ second := by
            rintro rfl
            rw [tagged] at tagged'
            cases tagged'
          exact (beq_eq_false_iff_ne.mpr different).symm
  | none =>
      cases tagged' : truth? second with
      | some value' =>
          have different : first ≠ second := by
            rintro rfl
            rw [tagged] at tagged'
            cases tagged'
          exact (beq_eq_false_iff_ne.mpr different).symm
      | none => rfl

mutual

/-- Trees are compared as they are as data. -/
theorem same_ofDatum : ∀ first second : Expr, same (ofDatum first) (ofDatum second) = Expr.alike first second
  | .number _, .number _ => rfl
  | .symbol first, .symbol second => same_ofDatum_symbol first second
  | .list firsts, .list seconds => sameItems_ofData firsts seconds
  | .number _, .list _ => rfl
  | .list _, .number _ => rfl
  | .number _, .symbol name => by
      simp only [ofDatum]
      cases truth? name <;> rfl
  | .list _, .symbol name => by
      simp only [ofDatum]
      cases truth? name <;> rfl
  | .symbol name, .number _ => by
      simp only [ofDatum]
      cases truth? name <;> rfl
  | .symbol name, .list _ => by
      simp only [ofDatum]
      cases truth? name <;> rfl

theorem sameItems_ofData : ∀ firsts seconds : List Expr,
    sameItems (ofData firsts) (ofData seconds) = Expr.alikeItems firsts seconds
  | [], [] => rfl
  | [], _ :: _ => rfl
  | _ :: _, [] => rfl
  | first :: firsts, second :: seconds => by
      rw [ofData, ofData, sameItems, Expr.alikeItems, same_ofDatum first second, sameItems_ofData firsts seconds]

end

/-!
### Texts
-/

/-- An identity names one closure in both values, as it does in all values that one caller can hold. -/
def AgreeOnClosures (first second : Value) : Prop :=
  first.Each fun closure => second.Each fun closure' => closure.identity = closure'.identity → closure = closure'

mutual

/-- Equal values have one text, where an identity names one closure. -/
theorem Same.text_eq {first second : Value} (related : Same first second) (agree : first.AgreeOnClosures second) :
    first.text = second.text := by
  cases related with
  | number equal => exact displayNumber_eq_of_beq equal
  | symbol | boolean | primitive => rfl
  | list items =>
      have agreeItems : ∀ item ∈ _, ∀ item' ∈ _, AgreeOnClosures item item' :=
        fun item member item' member' closure within closure' within' =>
          agree closure (.inside member within) closure' (.inside member' within')
      rw [text, text, items.texts_eq agreeItems]
  | closure identity => rw [agree _ .whole _ .whole identity]

/-- So are the elements of lists. -/
theorem SameItems.texts_eq {firsts seconds : List Value} (related : SameItems firsts seconds)
    (agree : ∀ item ∈ firsts, ∀ item' ∈ seconds, AgreeOnClosures item item') : texts firsts = texts seconds := by
  cases related with
  | nil => rfl
  | cons head tail =>
      have agreeTail := fun item member item' member' =>
        agree item (List.mem_cons_of_mem _ member) item' (List.mem_cons_of_mem _ member')
      rw [texts, texts, head.text_eq (agree _ List.mem_cons_self _ List.mem_cons_self), tail.texts_eq agreeTail]

end

/-- What is the same is of one kind. -/
theorem Same.kind_eq {first second : Value} (related : Same first second) : first.kind = second.kind := by
  cases related <;> rfl

/-- What is the same can be called, or cannot, on both sides. -/
theorem Same.isCallable_eq {first second : Value} (related : Same first second) :
    first.isCallable = second.isCallable := by
  cases related <;> rfl

end Value

/-- The values that a caller can come to hold agree on closures. -/
theorem Client.Reached.agreeOnClosures {client : Client} (reached : client.Reached) {first second : Value}
    (holds : client.Holds first) (holds' : client.Holds second) : first.AgreeOnClosures second := by
  obtain ⟨register, registers⟩ := reached.registers
  intro closure within closure' within'
  exact registers.store.unique _ _ (registers.each holds closure within) (registers.each holds' closure' within')

/-- Equality of values is a partial equivalence that printing respects. It is symmetric and transitive, and a value
    equals itself unless something in it is not a number. Equal values are of one kind and can be applied or cannot
    alike, and they have one text if an identity names one closure in them; it does in all values that a caller can
    come to hold. Trees are equal exactly where they are equal as data. -/
theorem value_equality :
    (∀ first second : Value, (first == second) = true → (second == first) = true) ∧
    (∀ first second third : Value, (first == second) = true → (second == third) = true → (first == third) = true) ∧
    (∀ value : Value, (value == value) = true ↔ ¬ value.HoldsNaN) ∧
    (∀ first second : Value, (first == second) = true →
      first.kind = second.kind ∧ first.isCallable = second.isCallable ∧
        (first.AgreeOnClosures second → first.text = second.text)) ∧
    (∀ client : Client, client.Reached → ∀ first second : Value, client.Holds first → client.Holds second →
      first.AgreeOnClosures second) ∧
    ∀ first second : Expr, (Value.ofDatum first == Value.ofDatum second) = true ↔ (first == second) = true := by
  refine ⟨fun _ _ => PartialEquivBEq.symm, fun _ _ _ => PartialEquivBEq.trans, Value.same_self_iff, ?_,
    fun _ reached _ _ => reached.agreeOnClosures, ?_⟩
  · intro first second equal
    have related := Value.same_iff.mp equal
    exact ⟨related.kind_eq, related.isCallable_eq, related.text_eq⟩
  · intro first second
    show Value.same _ _ = true ↔ Expr.alike _ _ = true
    rw [Value.same_ofDatum]

/-- A caller has made a closure. Two lists of it and of the two zeros are equal and print alike, though the zeros
    differ; what is no number keeps a list from being equal to itself. -/
theorem value_equality_zeros :
    let closure : Value := .closure ⟨0, ["x"], .symbol "x", 0⟩
    let client := (Client.create ⟨.ofStore .vacant, [], []⟩ []).perform
      (.evaluate 1 (.list [.symbol "lambda", .list [.symbol "x"], .symbol "x"]) 0)
    client.Reached ∧ client.Holds closure ∧
      (Value.list [closure, .number 0] == .list [closure, .number (-0)]) = true ∧
      (Value.list [closure, .number 0]).text = (Value.list [closure, .number (-0)]).text ∧
      (Value.list [closure, .number (0 / 0)] == .list [closure, .number (0 / 0)]) = false := by
  have reached : Client.Reached ((Client.create ⟨.ofStore .vacant, [], []⟩ []).perform
      (.evaluate 1 (.list [.symbol "lambda", .list [.symbol "x"], .symbol "x"]) 0)) :=
    (Client.Reached.start.create [] fun _ member => nomatch member).step _
      ⟨List.forall_mem_singleton.mpr List.mem_cons_self, fun _ member => nomatch member⟩
  have equal : (Value.list [.closure ⟨0, ["x"], .symbol "x", 0⟩, .number 0] ==
      .list [.closure ⟨0, ["x"], .symbol "x", 0⟩, .number (-0)]) = true := by decide
  obtain ⟨_, _, self, alike, held, _⟩ := value_equality
  refine ⟨reached, ?_, equal, ?_, ?_⟩
  · exact fun _ within => ⟨_, List.mem_cons_self, within⟩
  · refine (alike _ _ equal).2.2 (held _ reached _ _ ?_ ?_)
    all_goals
      rw [Client.Holds, Value.each_list]
      simp only [List.forall_mem_cons, Value.each_number, List.not_mem_nil, false_implies, implies_true, and_true]
      exact fun _ within => ⟨_, List.mem_cons_self, within⟩
  · rw [← Bool.not_eq_true, self, not_not]
    exact ⟨0 / 0, by decide, .inside (List.mem_cons_of_mem _ List.mem_cons_self) .whole⟩

end LexLisp
