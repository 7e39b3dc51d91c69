/-
Module: LexLisp.Proofs.Unmentioned
Purpose: Bindings that nothing mentions do not matter. If neither an expression nor any procedure in a store
  mentions a name, other than as a keyword at the head of a list, then whatever that name is bound to, and in
  whatever frames, the expression does the same. So a keyword cannot be shadowed.
Main exports: Store.AgreeBut, Store.beside, evaluate_unmentioned
-/
import LexLisp.Proofs.Coupling
import LexLisp.Proofs.Isolation

namespace LexLisp

/-!
### Stores that agree but for one name
-/

namespace Store

/-- Two stores with the same frames, which bind every name but one to related values or to none. -/
structure AgreeBut (hidden : String) (related : Value → Value → Prop) (first second : Store) : Prop where
  sizes : first.size = second.size
  parents : ∀ frame, first.parent? frame = second.parent? frame
  bindings : ∀ frame name, name ≠ hidden →
    Option.Rel related (first.local? frame name) (second.local? frame name)

/-- What agrees in one way agrees in any weaker way. -/
theorem AgreeBut.mono {hidden : String} {small large : Value → Value → Prop}
    (weaker : ∀ left right, small left right → large left right) {first second : Store}
    (agree : first.AgreeBut hidden small second) : first.AgreeBut hidden large second :=
  ⟨agree.sizes, agree.parents, fun frame name shown =>
    Correspondence.rel_mono weaker (agree.bindings frame name shown)⟩

theorem AgreeBut.local?_eq {hidden : String} {first second : Store}
    (agree : first.AgreeBut hidden (· = ·) second) (frame : FrameId) {name : String} (shown : name ≠ hidden) :
    first.local? frame name = second.local? frame name := by
  rcases Correspondence.rel_cases (agree.bindings frame name shown) with
    ⟨here, there⟩ | ⟨value, _, here, there, rfl⟩
  · rw [here, there]
  · rw [here, there]

/-- Two runs that start from these stores make the same frames. Closures that both stores have made are the same,
    and those that the runs make correspond in the order in which they are made. -/
def beside (first second : Store) : Correspondence where
  frames left right := left = right
  identities left right := (left = right ∧ left < first.closures ∧ left < second.closures) ∨
    ∃ count, left = first.closures + count ∧ right = second.closures + count

end Store

mutual

/-- Where frames and identities correspond only to themselves, like values are equal. -/
theorem Like.eq_of_same {pairing : Correspondence} (frames : ∀ left right, pairing.frames left right → left = right)
    (identities : ∀ left right, pairing.identities left right → left = right) {left right : Value}
    (like : Like pairing left right) : left = right := by
  cases like with
  | number | symbol | boolean | primitive => rfl
  | list items => rw [items.eq_of_same frames identities]
  | closure parameters body identity home => rw [identities _ _ identity, frames _ _ home]

/-- So are lists, element by element. -/
theorem LikeItems.eq_of_same {pairing : Correspondence}
    (frames : ∀ left right, pairing.frames left right → left = right)
    (identities : ∀ left right, pairing.identities left right → left = right) {lefts rights : List Value}
    (like : LikeItems pairing lefts rights) : lefts = rights := by
  cases like with
  | nil => rfl
  | cons first rest => rw [first.eq_of_same frames identities, rest.eq_of_same frames identities]

end

theorem Like.eq_of_beside {first second : Store} (counters : first.closures = second.closures)
    {left right : Value} (like : Like (first.beside second) left right) : left = right := by
  apply like.eq_of_same (fun _ _ same => same)
  rintro left right (⟨same, _⟩ | ⟨count, here, there⟩)
  · exact same
  · rw [here, there, counters]

/-!
### One name out of sight
-/

/-- Every name stands for itself, and one is out of sight. -/
def Naming.but (hidden : String) : Naming where
  stands name name' := name = name' ∧ name ≠ hidden
  one_to_one := by
    rintro name _ other _ ⟨rfl, _⟩ ⟨rfl, _⟩
    exact Iff.rfl

/-- Texts and all names but one are compared, in every frame. -/
def Comparison.but (hidden : String) (first second : Store) : Comparison where
  Region := Unit
  naming _ := .but hidden
  literal := True
  issued := first.closures
  issued' := second.closures

section

variable {hidden : String} {first second : Store} {scopes : Scopes (.but hidden first second)}

/-- Akin values are like one another here, since texts are compared and frames stay in their places. -/
theorem Scopes.Akin.like {left right : Value} (akin : scopes.Akin left right) :
    Like (first.beside second) left right := by
  apply LexLisp.Akin.like trivial _ akin
  rintro ⟨identity, parameters, body, home⟩ ⟨identity', parameters', body', home'⟩ pairs
  obtain ⟨rfl, rfl⟩ := pairs.same trivial
  exact .closure parameters body pairs.identities pairs.home_eq

/-- Coupled stores agree but for the hidden name. -/
theorem Coupled.agreeBut {left right : Store} (coupled : Coupled scopes left right) :
    left.AgreeBut hidden (Like (first.beside second)) right where
  sizes := coupled.size_first.trans coupled.size_second.symm
  parents := coupled.parents
  bindings frame name shown := by
    rcases Nat.lt_or_ge frame scopes.made with made | beyond
    · exact Correspondence.rel_mono (fun _ _ akin => Scopes.Akin.like akin)
        (coupled.bindings made ⟨rfl, shown⟩)
    · have here := Store.frame?_eq_none_iff.mpr (coupled.size_first ▸ beyond)
      have there := Store.frame?_eq_none_iff.mpr (coupled.size_second ▸ beyond)
      rw [Store.local?, Store.local?, here, there]
      exact .none

/-- What ends together ends with like outcomes and stores that agree but for the hidden name. -/
theorem Together.agreeBut {ending ending' : Ending Value} (together : Together scopes Scopes.Akin ending ending') :
    LikeOutcomes (first.beside second) ending.outcome ending'.outcome ∧
      ending.store.AgreeBut hidden (Like (first.beside second)) ending'.store := by
  rcases together.cases with ⟨value, value', later, later', grown, rfl, rfl, _, coupled, akin⟩ |
    ⟨stop, stop', later, later', grown, rfl, rfl, stops, _, coupled⟩
  · exact ⟨Scopes.Akin.like akin, coupled.agreeBut⟩
  · refine ⟨?_, coupled.agreeBut⟩
    rcases stops.cases with ⟨fault, fault', rfl, rfl, faults⟩ | ⟨rfl, rfl⟩
    · exact congrArg Stop.fault (faults.2 trivial)
    · exact rfl

end

/-- An expression does the same whatever a name is bound to, if that name is mentioned neither by it nor by the
    body of any procedure that is stored under another name: it runs out of fuel in both stores or in none, it
    yields the same value or stops for the same fault, and the stores it leaves again agree on all other names.
    The name may be a keyword, which is not mentioned by standing at the head of a list; so no binding of a
    keyword changes what a special form does. Where the two stores have made equally many closures, the closures
    made are the same to their identities. -/
theorem evaluate_unmentioned {hidden : String} {expression : Expr} {frame : FrameId} {machine machine' : Machine}
    (wellFormed : machine.store.WellFormed) (wellFormed' : machine'.store.WellFormed)
    (made : frame < machine.store.size) (agree : machine.store.AgreeBut hidden (· = ·) machine'.store)
    (unmentioned : hidden ∉ expression.mentioned)
    (stored : ∀ frame name value, name ≠ hidden → machine.store.local? frame name = some value →
      value.Each fun procedure => hidden ∉ procedure.body.mentioned) (fuel : Nat) :
    let ending : Ending Value := evaluate fuel expression frame machine
    let ending' : Ending Value := evaluate fuel expression frame machine'
    let pairing := machine.store.beside machine'.store
    LikeOutcomes pairing ending.outcome ending'.outcome ∧
      ending.store.AgreeBut hidden (Like pairing) ending'.store ∧
      (machine.store.closures = machine'.store.closures →
        ending.outcome = ending'.outcome ∧ ending.store.AgreeBut hidden (· = ·) ending'.store) := by
  intro ending ending' pairing
  let comparison : Comparison := .but hidden machine.store machine'.store
  have inSight : ∀ tree : Expr, hidden ∉ tree.mentioned →
      ∀ name ∈ tree.mentioned, (Naming.but hidden).stands name name :=
    fun _ absent name member => ⟨rfl, fun same => absent (same ▸ member)⟩
  have coupled : Coupled (.uniform machine.store.size () : Scopes comparison) machine.store machine'.store :=
    coupled_uniform rfl rfl wellFormed wellFormed' agree.sizes agree.parents (fun _ _ stands => stands.1)
      (fun frame _ stands => agree.local?_eq frame stands.2)
      fun frame name value stands found => (stored frame name value stands.2 found).mono fun _ => inSight _
  have variant : Variant comparison.naming () expression expression :=
    Expr.variant_self (fun name _ _ stands => by rw [stands.1]) (inSight expression unmentioned)
  have together := evaluate_keepsStep comparison fuel _ _ _ _ _ _ coupled made variant fun _ => rfl
  obtain ⟨outcomes, stores⟩ := together.agreeBut
  refine ⟨outcomes, stores, fun counters => ⟨?_, stores.mono fun _ _ => Like.eq_of_beside counters⟩⟩
  rcases outcomes.cases with ⟨value, value', here, there, like⟩ | ⟨stop, here, there⟩
  · rw [here, there, like.eq_of_beside counters]
  · rw [here, there]

/-- A procedure that decides with `if` is stored, and `if` is bound beside it in one store only. -/
theorem evaluate_unmentioned_keyword :
    let body : Expr := .list [.symbol "if", .symbol "flag", .number 1, .number 2]
    let store : Store :=
      Store.define { Store.fresh with closures := 1 } Store.globalFrame "pick" (.closure ⟨0, ["flag"], body, 0⟩)
    let shadowed : Store := store.define Store.globalFrame "if" (.number 0)
    let condition : Expr := .list [.symbol "<", .list [.symbol "pick", .symbol "#t"], .number 2]
    let expression : Expr := .list [.symbol "if", condition, .list [.symbol "quote", .symbol "if"],
      .list [.symbol "pick", .symbol "#f"]]
    "if" ∉ expression.mentioned ∧ store.AgreeBut "if" (· = ·) shadowed ∧
      ∀ fuel, Ending.outcome (evaluate fuel expression Store.globalFrame (.ofStore store)) =
        Ending.outcome (evaluate fuel expression Store.globalFrame (.ofStore shadowed)) := by
  intro body store shadowed condition expression
  have counted : Store.WellFormed { Store.fresh with closures := 1 } :=
    existence_safe_iff.mp
      (existence_lawful.keeps_close (existence_safe_iff.mpr Store.wellFormed_fresh) trivial).safe
  have one : Store.globalFrame < Store.size { Store.fresh with closures := 1 } := Store.rooted_fresh.made
  have known : Store.Knows { Store.fresh with closures := 1 } ⟨0, ["flag"], body, 0⟩ := ⟨one, Nat.zero_lt_one⟩
  have wellFormed : store.WellFormed := counted.define one "pick" ((Value.each_closure _).mpr known)
  have made : Store.globalFrame < store.size := by rwa [Store.size_define]
  have wellFormed' : shadowed.WellFormed := wellFormed.define made "if" (Value.each_number 0)
  have absent : "if" ∉ expression.mentioned := by decide
  have agree : store.AgreeBut "if" (· = ·) shadowed := by
    refine ⟨(Store.size_define ..).symm, fun frame => (Store.parent?_define ..).symm, ?_⟩
    intro frame name shown
    rw [Store.local?_define made, if_neg fun both => shown both.2]
    cases store.local? frame name with
    | none => exact .none
    | some value => exact .some rfl
  have stored : ∀ frame name value, name ≠ "if" → store.local? frame name = some value →
      value.Each fun procedure => "if" ∉ procedure.body.mentioned := by
    intro frame name value _ found
    rw [Store.local?_define one] at found
    split at found
    · cases found
      exact (Value.each_closure _).mpr (by decide)
    · intro procedure within
      exact absurd (Store.wellFormed_fresh.known frame name value found procedure within).2 (Nat.not_lt_zero _)
  refine ⟨absent, agree, fun fuel => ?_⟩
  have outcomes := @evaluate_unmentioned "if" expression Store.globalFrame (.ofStore store) (.ofStore shadowed)
    wellFormed wellFormed' made agree absent stored fuel
  exact (outcomes.2.2 (Store.closures_define ..).symm).1

end LexLisp
