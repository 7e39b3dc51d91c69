/-
Module: LexLisp.Proofs.Anatomy
Purpose: What can be read off an expression or a store without evaluating anything: how deep the lists of a tree
  nest, which special forms are in it, and which closures a store holds. What is evaluated on behalf of an
  expression is less deep than the whole and has no forms that the whole has not; nor has the body of a procedure
  that it makes.
Main exports: Expr.height, Keyword.bodies, Expr.keywords, Store.Each, Expr.height_lt_of_part,
  Expr.keywords_subset_of_part, Expr.keywords_subset_of_makes
-/
import LexLisp.Proofs.WellFormed

namespace LexLisp

namespace Expr

/-!
### How deep a tree is
-/

mutual

/-- How deep the lists of a tree nest. -/
def height : Expr → Nat
  | .number _ => 0
  | .symbol _ => 0
  | .list items => heightAmong items + 1

/-- The greatest height among some trees. -/
def heightAmong : List Expr → Nat
  | [] => 0
  | item :: items => max item.height (heightAmong items)

end

theorem height_le_heightAmong {item : Expr} {items : List Expr} (member : item ∈ items) :
    item.height ≤ heightAmong items := by
  induction items with
  | nil => cases member
  | cons first rest inductionHypothesis =>
      rw [heightAmong]
      rcases List.mem_cons.mp member with same | later
      · rw [same]
        exact Nat.le_max_left _ _
      · exact Nat.le_trans (inductionHypothesis later) (Nat.le_max_right _ _)

/-- What an expression evaluates in its own frame is less deep than the whole. -/
theorem height_lt_of_part {whole part : Expr} (inside : Part whole part) : part.height < whole.height := by
  obtain ⟨head, operands, same, member, _⟩ := inside.element
  rw [same, height]
  exact Nat.lt_succ_of_le (height_le_heightAmong member)

end Expr

/-!
### Which forms are in it
-/

/-- Those operands of a form that are evaluated at some time, be it in the body of a procedure. Quoted data is not,
    and neither is what stands in the place of a name or of parameters. -/
def Keyword.bodies {α : Type} : Keyword → List α → List α
  | .quote, _ => []
  | .define, operands => operands.tail
  | .assign, operands => operands.tail
  | .sequence, operands => operands
  | .conditional, operands => operands
  | .lambda, operands => operands.tail
  | .lambdaOne, operands => operands.tail

namespace Expr

mutual

/-- The keywords of the special forms in an expression, outside quoted data. -/
def keywords : Expr → List Keyword
  | .number _ => []
  | .symbol _ => []
  | .list [] => []
  | .list (head :: operands) =>
    match Keyword.ofHead? head with
    | some keyword => keyword :: (keyword.bodies (keywordsOfEach operands)).flatten
    | none => head.keywords ++ (keywordsOfEach operands).flatten

/-- The keywords of the special forms in each of some expressions. -/
def keywordsOfEach : List Expr → List (List Keyword)
  | [] => []
  | item :: items => item.keywords :: keywordsOfEach items

end

example : (Expr.list [.symbol "begin", .list [.symbol "quote", .list [.symbol "set!", .symbol "x", .number 1]],
    .list [.symbol "lambda", .list [.symbol "define"], .list [.symbol "if", .symbol "define"]]]).keywords =
      [.sequence, .quote, .lambda, .conditional] := by
  decide

theorem keywords_mem_keywordsOfEach {item : Expr} {items : List Expr} (member : item ∈ items) :
    item.keywords ∈ keywordsOfEach items := by
  induction items with
  | nil => cases member
  | cons first rest inductionHypothesis =>
      rw [keywordsOfEach]
      rcases List.mem_cons.mp member with same | later
      · rw [same]
        exact List.mem_cons_self
      · exact List.mem_cons_of_mem _ (inductionHypothesis later)

/-- A form is one of the forms in it. -/
theorem mem_keywords_of_named {head : Expr} {keyword : Keyword} (named : Keyword.ofHead? head = some keyword)
    (operands : List Expr) : keyword ∈ (list (head :: operands)).keywords := by
  simp [keywords, named]

/-- What an expression evaluates in its own frame has no forms that the whole has not. -/
theorem keywords_subset_of_part {whole part : Expr} (inside : Part whole part) :
    part.keywords ⊆ whole.keywords := by
  intro keyword present
  cases inside with
  | form named inForm =>
      cases inForm with
      | defined | assigned | condition | consequent | alternative =>
          simp [keywords, keywordsOfEach, Keyword.bodies, named, present]
      | sequenced member =>
          simp only [keywords, named, Keyword.bodies]
          exact List.mem_cons_of_mem _ (List.mem_flatten_of_mem (keywords_mem_keywordsOfEach member) present)
  | operator plain => simp [keywords, plain, present]
  | operand plain member =>
      simp only [keywords, plain]
      exact List.mem_append_right _ (List.mem_flatten_of_mem (keywords_mem_keywordsOfEach member) present)

/-- The body of a procedure has no forms that the expression has not that makes the procedure. -/
theorem keywords_subset_of_makes {expression body : Expr} {names : List String}
    (makes : Makes expression names body) : body.keywords ⊆ expression.keywords := by
  intro keyword present
  cases makes with
  | lambda named shape => simp [keywords, keywordsOfEach, Keyword.bodies, named, present]
  | lambdaOne named shape => simp [keywords, keywordsOfEach, Keyword.bodies, named, present]

end Expr

/-!
### Which closures are in a store
-/

/-- Every closure in a value that is bound anywhere in a store is of a kind. -/
def Store.Each (kind : Closure → Prop) (store : Store) : Prop :=
  ∀ frame name value, store.local? frame name = some value → value.Each kind

namespace Store

variable {kind : Closure → Prop} {store : Store}

theorem Each.lookup? (each : store.Each kind) {frame : FrameId} {name : String} {value : Value}
    (found : store.lookup? frame name = some value) : value.Each kind := by
  obtain ⟨link, _, bound⟩ := exists_mem_chain_of_lookup? found
  exact each link name value bound

theorem Each.define (each : store.Each kind) (frame : FrameId) (name : String) {value : Value}
    (known : value.Each kind) : (store.define frame name value).Each kind := by
  intro link wanted bound found
  rcases Nat.lt_or_ge frame store.size with made | beyond
  · rw [local?_define made] at found
    split at found
    · cases found
      exact known
    · exact each link wanted bound found
  · have here := lt_size_of_local? found
    rw [size_define] at here
    have elsewhere : link ≠ frame := Nat.ne_of_lt (Nat.lt_of_lt_of_le here beyond)
    rw [local?_congr (frame?_define_of_ne elsewhere name value)] at found
    exact each link wanted bound found

theorem Each.enter (each : store.Each kind) (home : FrameId) (names : List String) {values : List Value}
    (known : ∀ value ∈ values, value.Each kind) : (store.enter home names values).2.Each kind := by
  intro link name value found
  rcases local?_enter found with operand | old
  · exact known value operand
  · exact each link name value old

theorem Each.ensurePrimitives (each : store.Each kind) (frame : FrameId) :
    (store.ensurePrimitives frame).Each kind := by
  unfold Store.ensurePrimitives
  refine List.foldlRecOn Primitive.all _ each fun before eachBefore primitive _ => ?_
  split
  · exact eachBefore
  · exact eachBefore.define _ _ (Value.each_primitive primitive)

/-- A new store holds no closures. -/
theorem each_fresh : fresh.Each kind := by
  intro frame name value found closure within
  have issued : closure.identity < 0 := (wellFormed_fresh.known frame name value found closure within).2
  exact absurd issued (Nat.not_lt_zero _)

/-- Nor does one with data in it. -/
theorem each_withBindings {entries : List (String × Value)}
    (data : ∀ entry ∈ entries, entry.2.Each fun _ => False) : (withBindings entries).Each kind := by
  unfold withBindings
  refine List.foldlRecOn entries _ each_fresh fun before eachBefore entry member => ?_
  exact eachBefore.define _ _ ((data entry member).mono fun _ none => none.elim)

end Store

end LexLisp
