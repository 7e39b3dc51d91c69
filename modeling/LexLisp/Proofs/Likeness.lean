/-
Module: LexLisp.Proofs.Likeness
Purpose: Values that differ only in which frames and identities their closures name. Such values have the same
  text and the same kind, so reports about them agree, and primitives treat them alike.
Main exports: Correspondence, Like, LikeItems, Like.text_eq, Like.kind_eq, Primitive.call_like
-/
import LexLisp.Proofs.Kinship

namespace LexLisp

/-- Which frames and which closure identities of one store stand for which of another. -/
structure Correspondence where
  frames : FrameId → FrameId → Prop
  identities : Nat → Nat → Prop

namespace Correspondence

/-- A correspondence that relates whatever another relates. -/
structure Refines (small large : Correspondence) : Prop where
  frames : ∀ left right, small.frames left right → large.frames left right
  identities : ∀ left right, small.identities left right → large.identities left right

theorem Refines.refl (pairing : Correspondence) : pairing.Refines pairing :=
  ⟨fun _ _ related => related, fun _ _ related => related⟩

theorem Refines.trans {small middle large : Correspondence} (first : small.Refines middle)
    (second : middle.Refines large) : small.Refines large :=
  ⟨fun left right related => second.frames left right (first.frames left right related),
    fun left right related => second.identities left right (first.identities left right related)⟩

/-- The correspondence read from right to left. -/
def flip (pairing : Correspondence) : Correspondence :=
  ⟨fun left right => pairing.frames right left, fun left right => pairing.identities right left⟩

/-- The pairs whose left frame is kept. -/
def restrict (pairing : Correspondence) (keep : FrameId → Prop) : Correspondence :=
  { pairing with frames := fun left right => pairing.frames left right ∧ keep left }

end Correspondence

mutual

/-- The same data, and at the places of closures procedures with the same text whose frames and identities
    correspond. -/
inductive Like (pairing : Correspondence) : Value → Value → Prop where
  | number (value : Float) : Like pairing (.number value) (.number value)
  | symbol (name : String) : Like pairing (.symbol name) (.symbol name)
  | boolean (value : Bool) : Like pairing (.boolean value) (.boolean value)
  | list {left right : List Value} (items : LikeItems pairing left right) :
      Like pairing (.list left) (.list right)
  | closure (parameters : List String) (body : Expr) {left right : Nat} {home away : FrameId}
      (identities : pairing.identities left right) (frames : pairing.frames home away) :
      Like pairing (.closure ⟨left, parameters, body, home⟩) (.closure ⟨right, parameters, body, away⟩)
  | primitive (operation : Primitive) : Like pairing (.primitive operation) (.primitive operation)

/-- Likeness of lists, element by element. -/
inductive LikeItems (pairing : Correspondence) : List Value → List Value → Prop where
  | nil : LikeItems pairing [] []
  | cons {left right : Value} {lefts rights : List Value} (first : Like pairing left right)
      (rest : LikeItems pairing lefts rights) : LikeItems pairing (left :: lefts) (right :: rights)

end

mutual

/-- Likeness stays where more frames and identities correspond. -/
theorem Like.refine {small large : Correspondence} (refines : small.Refines large)
    {left right : Value} (like : Like small left right) : Like large left right := by
  cases like with
  | number value => exact .number value
  | symbol name => exact .symbol name
  | boolean value => exact .boolean value
  | list items => exact .list (items.refine refines)
  | closure parameters body identities frames =>
      exact .closure parameters body (refines.identities _ _ identities) (refines.frames _ _ frames)
  | primitive operation => exact .primitive operation

theorem LikeItems.refine {small large : Correspondence} (refines : small.Refines large)
    {lefts rights : List Value} (like : LikeItems small lefts rights) :
    LikeItems large lefts rights := by
  cases like with
  | nil => exact .nil
  | cons first rest => exact .cons (first.refine refines) (rest.refine refines)

end

mutual

/-- Likeness can be read from right to left. -/
theorem Like.flip {pairing : Correspondence} {left right : Value} (like : Like pairing left right) :
    Like pairing.flip right left := by
  cases like with
  | number value => exact .number value
  | symbol name => exact .symbol name
  | boolean value => exact .boolean value
  | list items => exact .list items.flip
  | closure parameters body identities frames => exact .closure parameters body identities frames
  | primitive operation => exact .primitive operation

theorem LikeItems.flip {pairing : Correspondence} {lefts rights : List Value}
    (like : LikeItems pairing lefts rights) : LikeItems pairing.flip rights lefts := by
  cases like with
  | nil => exact .nil
  | cons first rest => exact .cons first.flip rest.flip

end

mutual

/-- Like values are displayed alike: a closure shows its parameters, and neither its frame nor its identity. -/
theorem Like.text_eq {pairing : Correspondence} {left right : Value}
    (like : Like pairing left right) : left.text = right.text := by
  cases like with
  | number | symbol | boolean | primitive => rfl
  | list items => simp only [Value.text, items.texts_eq]
  | closure parameters body identities frames => simp only [Value.text]

/-- So are the elements of like lists. -/
theorem LikeItems.texts_eq {pairing : Correspondence} {lefts rights : List Value}
    (like : LikeItems pairing lefts rights) : Value.texts lefts = Value.texts rights := by
  cases like with
  | nil => rfl
  | cons first rest => simp only [Value.texts, first.text_eq, rest.texts_eq]

end

/-- Like values are of one kind. -/
theorem Like.kind_eq {pairing : Correspondence} {left right : Value}
    (like : Like pairing left right) : left.kind = right.kind := by
  cases like <;> rfl

/-- A fault says the same of like values. -/
theorem Like.described_eq {pairing : Correspondence} {left right : Value}
    (like : Like pairing left right) : left.described = right.described := by
  simp only [Value.described, like.kind_eq, like.text_eq]

/-- Like values can both be called, or neither can. -/
theorem Like.isCallable_eq {pairing : Correspondence} {left right : Value}
    (like : Like pairing left right) : left.isCallable = right.isCallable := by
  cases like <;> rfl

/-- Like lists are of one length. -/
theorem LikeItems.length_eq {pairing : Correspondence} {lefts rights : List Value}
    (like : LikeItems pairing lefts rights) : lefts.length = rights.length := by
  induction lefts generalizing rights with
  | nil =>
      cases like
      rfl
  | cons left lefts inductionHypothesis =>
      cases like with
      | cons first rest => simp only [List.length_cons, inductionHypothesis rest]

/-- An element of a list has its counterpart in every like list. -/
theorem LikeItems.exists_mem {pairing : Correspondence} {left : Value} {lefts rights : List Value}
    (like : LikeItems pairing lefts rights) (member : left ∈ lefts) :
    ∃ right ∈ rights, Like pairing left right := by
  induction lefts generalizing rights with
  | nil => cases member
  | cons head lefts inductionHypothesis =>
      cases like with
      | cons first rest =>
          rcases List.mem_cons.mp member with same | later
          · exact ⟨_, List.mem_cons_self, same ▸ first⟩
          · obtain ⟨right, inside, related⟩ := inductionHypothesis rest later
            exact ⟨right, List.mem_cons_of_mem _ inside, related⟩

/-- A closure in a value has its counterpart in every like value. -/
theorem Like.exists_closure {pairing : Correspondence} {closure : Closure} {left : Value}
    (within : Value.Within (.closure closure) left) :
    ∀ {right}, Like pairing left right →
      ∃ other, Value.Within (.closure other) right ∧ pairing.frames closure.home other.home := by
  induction within with
  | whole =>
      intro right like
      cases like with
      | closure parameters body identities frames => exact ⟨_, .whole, frames⟩
  | inside member _ inductionHypothesis =>
      intro right like
      cases like with
      | list items =>
          obtain ⟨item, inside, related⟩ := items.exists_mem member
          obtain ⟨other, found, frames⟩ := inductionHypothesis related
          exact ⟨other, .inside inside found, frames⟩

mutual

/-- Likeness needs only the pairs of frames that closures in the value captured. -/
theorem Like.restrict {pairing : Correspondence} {keep : FrameId → Prop} {left right : Value}
    (like : Like pairing left right) (each : left.Each fun closure => keep closure.home) :
    Like (pairing.restrict keep) left right := by
  cases like with
  | number value => exact .number value
  | symbol name => exact .symbol name
  | boolean value => exact .boolean value
  | list items => exact .list (items.restrict ((Value.each_list _).mp each))
  | closure parameters body identities frames =>
      exact .closure parameters body identities ⟨frames, (Value.each_closure _).mp each⟩
  | primitive operation => exact .primitive operation

theorem LikeItems.restrict {pairing : Correspondence} {keep : FrameId → Prop}
    {lefts rights : List Value} (like : LikeItems pairing lefts rights)
    (each : ∀ item ∈ lefts, item.Each fun closure => keep closure.home) :
    LikeItems (pairing.restrict keep) lefts rights := by
  cases like with
  | nil => exact .nil
  | cons first rest =>
      obtain ⟨here, others⟩ := List.forall_mem_cons.mp each
      exact .cons (first.restrict here) (rest.restrict others)

end

mutual

/-- Data from one tree is like itself under any correspondence, since it holds no closures. -/
theorem like_ofDatum (pairing : Correspondence) :
    ∀ expression : Expr, Like pairing (.ofDatum expression) (.ofDatum expression)
  | .number value => .number value
  | .symbol name => by
      unfold Value.ofDatum
      split
      · exact .boolean _
      · exact .symbol _
  | .list items => by
      unfold Value.ofDatum
      exact .list (likeItems_ofData pairing items)

theorem likeItems_ofData (pairing : Correspondence) :
    ∀ expressions : List Expr, LikeItems pairing (Value.ofData expressions) (Value.ofData expressions)
  | [] => .nil
  | first :: rest => .cons (like_ofDatum pairing first) (likeItems_ofData pairing rest)

end

/-!
### Primitives

To be like one another is to be akin where texts are compared and procedures are like one another, so what
primitives do with akin values they do with like ones.
-/

/-- The kinship of like values. -/
def Correspondence.kinship (pairing : Correspondence) : Kinship where
  literal := True
  procedures left right := Like pairing (.closure left) (.closure right)
  shown like _ := by
    cases like
    rfl

mutual

/-- Like values are akin. -/
theorem Like.akin {pairing : Correspondence} {left right : Value} (like : Like pairing left right) :
    Akin pairing.kinship left right := by
  cases like with
  | number value => exact .number value
  | symbol name => exact .symbol fun _ => rfl
  | boolean value => exact .boolean value
  | list items => exact .list items.akin
  | closure parameters body identities frames => exact .closure (.closure parameters body identities frames)
  | primitive operation => exact .primitive operation

/-- So are the elements of like lists. -/
theorem LikeItems.akin {pairing : Correspondence} {lefts rights : List Value}
    (like : LikeItems pairing lefts rights) : AkinItems pairing.kinship lefts rights := by
  cases like with
  | nil => exact .nil
  | cons first rest => exact .cons first.akin rest.akin

end

mutual

/-- Where texts are compared, akin values are like one another as soon as their procedures are. -/
theorem Akin.like {kinship : Kinship} {pairing : Correspondence} (literal : kinship.literal)
    (procedures : ∀ left right, kinship.procedures left right → Like pairing (.closure left) (.closure right))
    {left right : Value} (akin : Akin kinship left right) : Like pairing left right := by
  cases akin with
  | number value => exact .number value
  | symbol same =>
      rw [same literal]
      exact .symbol _
  | boolean value => exact .boolean value
  | list items => exact .list (items.like literal procedures)
  | closure related => exact procedures _ _ related
  | primitive operation => exact .primitive operation

theorem AkinItems.like {kinship : Kinship} {pairing : Correspondence} (literal : kinship.literal)
    (procedures : ∀ left right, kinship.procedures left right → Like pairing (.closure left) (.closure right))
    {lefts rights : List Value} (akin : AkinItems kinship lefts rights) : LikeItems pairing lefts rights := by
  cases akin with
  | nil => exact .nil
  | cons first rest => exact .cons (first.like literal procedures) (rest.like literal procedures)

end

/-- Both fail alike, or both yield, and what they yield is alike. -/
def LikeResults (pairing : Correspondence) : Except Fault Value → Except Fault Value → Prop
  | .ok left, .ok right => Like pairing left right
  | .error left, .error right => left = right
  | _, _ => False

/-- A primitive does not tell like operands apart. -/
theorem Primitive.call_like {pairing : Correspondence} (primitive : Primitive) {lefts rights : List Value}
    (like : LikeItems pairing lefts rights) :
    LikeResults pairing (primitive.call lefts) (primitive.call rights) := by
  rcases (primitive.call_akin like.akin).cases with
    ⟨left, right, here, there, akin⟩ | ⟨fault, fault', here, there, faults⟩
  · rw [here, there]
    exact akin.like trivial fun _ _ related => related
  · rw [here, there]
    exact faults.2 trivial

end LexLisp
