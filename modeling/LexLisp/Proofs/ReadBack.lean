/-
Module: LexLisp.Proofs.ReadBack
Purpose: What is bound can be read. A definition writes to the frame at hand, an assignment to the nearest frame that
  binds the name once the body is evaluated, and a call to its new frame. In all three cases a search from the same
  frame comes by the written binding first, whatever else the body made or changed. So the name, as an expression,
  has the value that was bound to it, unless it is a tag: a tag can be bound like any symbol, but as an expression it
  stands for itself.
Main exports: Keyword.Binds, Reads, exists_of_evaluate_binding, binding_read_back
-/
import LexLisp.Proofs.Parameters
import LexLisp.Proofs.Visibility

namespace LexLisp

/-!
### Reading
-/

/-- A search for a name in a frame finds a value, and the name, as an expression, has that value if it is no tag. -/
structure Reads (machine : Machine) (frame : FrameId) (name : String) (value : Value) : Prop where
  found : machine.store.lookup? frame name = some value
  evaluates : truth? name = none → ∀ fuel,
    evaluate (fuel + 1) (.symbol name) frame machine = .ok value machine

theorem reads_of_lookup? {machine : Machine} {frame : FrameId} {name : String} {value : Value}
    (found : machine.store.lookup? frame name = some value) : Reads machine frame name value :=
  ⟨found, fun plain _ => evaluate_variable plain found⟩

namespace Store

theorem lookup?_define {store : Store} {frame : FrameId} (made : frame < store.size) (name : String)
    (value : Value) : (store.define frame name value).lookup? frame name = some value := by
  apply lookup?_of_local?
  rw [local?_define made, if_pos ⟨rfl, rfl⟩]

/-- What is written to the nearest binding of a name is what a search finds. -/
theorem lookup?_define_of_nearest? {store : Store} (ordered : store.ParentsEarlier) {frame link : FrameId}
    (made : frame < store.size) {name : String} (found : store.nearest? frame name = some link) (value : Value) :
    (store.define link name value).lookup? frame name = some value := by
  have nearest := (nearest?_eq_some_iff ordered made).mp found
  exact (nearest.publishes_define ordered value).seen frame nearest

end Store

/-!
### The forms that bind
-/

/-- The forms that give a value to a name. -/
def Keyword.Binds (keyword : Keyword) : Prop :=
  keyword = .define ∨ keyword = .assign

section Forms

variable {fuel : Nat} {frame : FrameId} {machine later : Machine} {name : String} {answer : Value} {body : Expr}

theorem exists_of_evaluate_define
    (ended : evaluate (fuel + 1) (.list [.symbol "define", .symbol name, body]) frame machine = .ok answer later) :
    ∃ value middle, evaluate fuel body frame machine = .ok value middle ∧
      later.store = middle.store.define frame name value := by
  have keyword : Keyword.ofHead? (.symbol "define") = some .define := by decide
  rw [evaluate_form keyword] at ended
  simp only [evaluateForm, bindingName, Eval.ofExcept_ok] at ended
  rw [Eval.bind_ok (Eval.pure_apply _ _)] at ended
  obtain ⟨value, middle, evaluated, bound⟩ := Eval.exists_of_bind_ok ended
  cases bound
  exact ⟨value, middle, evaluated, rfl⟩

theorem exists_of_evaluate_assign
    (ended : evaluate (fuel + 1) (.list [.symbol "set!", .symbol name, body]) frame machine = .ok answer later) :
    ∃ value middle link, evaluate fuel body frame machine = .ok value middle ∧
      middle.store.nearest? frame name = some link ∧ later.store = middle.store.define link name value := by
  have keyword : Keyword.ofHead? (.symbol "set!") = some .assign := by decide
  rw [evaluate_form keyword] at ended
  simp only [evaluateForm, bindingName, Eval.ofExcept_ok] at ended
  rw [Eval.bind_ok (Eval.pure_apply _ _)] at ended
  obtain ⟨value, middle, evaluated, bound⟩ := Eval.exists_of_bind_ok ended
  rw [Eval.bind_ok (Eval.record_apply _ _)] at bound
  obtain ⟨_, last, assigned, answered⟩ := Eval.exists_of_bind_ok bound
  cases answered
  obtain ⟨link, found, rfl⟩ := Eval.exists_of_assign_ok assigned
  exact ⟨value, middle, link, evaluated, found, rfl⟩

/-- A form that binds a name yields nothing but the name; the value of its body can be read from then on. -/
theorem exists_of_evaluate_binding {keyword : Keyword} (binds : keyword.Binds)
    (wellFormed : machine.store.WellFormed) (made : frame < machine.store.size)
    (ended : evaluate (fuel + 1) (.list [.symbol keyword.name, .symbol name, body]) frame machine =
      .ok answer later) :
    ∃ value middle, evaluate fuel body frame machine = .ok value middle ∧ Reads later frame name value := by
  have after : ∀ {value middle}, evaluate fuel body frame machine = .ok value middle →
      middle.store.WellFormed ∧ frame < middle.store.size := by
    intro value middle evaluated
    have sound := evaluate_sound fuel body wellFormed made
    rw [evaluated] at sound
    exact ⟨sound.wellFormed, Nat.lt_of_lt_of_le made sound.grown.size_le⟩
  rcases binds with rfl | rfl
  · obtain ⟨value, middle, evaluated, written⟩ := exists_of_evaluate_define ended
    refine ⟨value, middle, evaluated, reads_of_lookup? ?_⟩
    rw [written]
    exact Store.lookup?_define (after evaluated).2 name value
  · obtain ⟨value, middle, link, evaluated, found, written⟩ := exists_of_evaluate_assign ended
    obtain ⟨middleWellFormed, middleMade⟩ := after evaluated
    refine ⟨value, middle, evaluated, reads_of_lookup? ?_⟩
    rw [written]
    exact Store.lookup?_define_of_nearest? middleWellFormed.ordered middleMade found value

end Forms

/-- Every successful binding can be read back by name. Where a definition or an assignment succeeds, a search from its
    frame finds the value that its body had, and the name has that value as an expression unless it is a tag. All
    closures of a run have distinct parameters, and where such a closure is called with one operand for each, the
    same holds in the new frame of each parameter and the operand at its place. -/
theorem binding_read_back :
    (∀ (keyword : Keyword) fuel name body frame (machine : Machine) answer later, keyword.Binds →
      machine.store.WellFormed → frame < machine.store.size →
      evaluate (fuel + 1) (.list [.symbol keyword.name, .symbol name, body]) frame machine = .ok answer later →
        ∃ value middle, evaluate fuel body frame machine = .ok value middle ∧ Reads later frame name value) ∧
    (∀ start client : Client, start.Initial → start.Run client → client.Distinct) ∧
    ∀ fuel (closure : Closure) values operator (machine : Machine), closure.Distinct →
      closure.parameters.length = values.length →
        let entered : Machine := ⟨(machine.store.enter closure.home closure.parameters values).2,
          machine.log.push (.apply operator values.length)⟩
        apply fuel (.closure closure) values operator machine =
          evaluate fuel closure.body machine.store.size entered ∧
        ∀ (index : Nat) name value, closure.parameters[index]? = some name → values[index]? = some value →
          Reads entered machine.store.size name value := by
  refine ⟨?_, ?_, ?_⟩
  · intro keyword fuel name body frame machine answer later binds wellFormed made ended
    exact exists_of_evaluate_binding binds wellFormed made ended
  · intro start client initial run
    exact run.distinct initial
  · intro fuel closure values operator machine distinct counts entered
    refine ⟨applyWith_closure counts, ?_⟩
    intro index name value atName atValue
    exact reads_of_lookup? ((Store.opened_enter distinct counts).arguments index name value atName atValue)

/-- An assignment whose body defines the name in a nearer frame than the one that bound it: the new binding is the one
    that is written and read. And the second of two parameters, whose name is bound outside as well. -/
theorem binding_read_back_nearer :
    let outer : Store := Store.fresh.define Store.globalFrame "x" (.symbol "old")
    let machine : Machine := ⟨(outer.enter Store.globalFrame [] []).2, #[]⟩
    let body : Expr := .list [.symbol "define", .symbol "x", .symbol "#f"]
    let closure : Closure := ⟨0, ["y", "x"], .symbol "x", Store.globalFrame⟩
    (∃ answer later, evaluate 3 (.list [.symbol "set!", .symbol "x", body]) 1 machine = .ok answer later ∧
      evaluate 1 (.symbol "x") 1 later = .ok (.symbol "x") later) ∧
    ∃ entered, apply 1 (.closure closure) [.boolean true, .boolean false] "f" machine =
        evaluate 1 (.symbol "x") 2 entered ∧
      evaluate 1 (.symbol "x") 2 entered = .ok (.boolean false) entered := by
  intro outer machine body closure
  obtain ⟨written, _, called⟩ := binding_read_back
  have outerWellFormed : outer.WellFormed :=
    Store.wellFormed_fresh.define (by decide) "x" (Value.each_symbol "old")
  have wellFormed : machine.store.WellFormed :=
    outerWellFormed.enter (by decide) [] (fun _ member => nomatch member)
  refine ⟨?_, ?_⟩
  · have defined := @evaluate_define 1 1 machine _ "x" _ (.symbol "#f") rfl
    have assigned := @evaluate_assign 2 1 machine _ "x" _ body 1 defined (by decide)
    obtain ⟨value, middle, evaluated, reads⟩ :=
      written .assign 2 "x" body 1 machine _ _ (Or.inr rfl) wellFormed (by decide) assigned
    rw [defined] at evaluated
    cases evaluated
    exact ⟨_, _, assigned, reads.evaluates (by decide) 0⟩
  · obtain ⟨entered, parameters⟩ := called 1 closure [.boolean true, .boolean false] "f" machine
      (show ["y", "x"].Nodup by decide) rfl
    exact ⟨_, entered, (parameters 1 "x" _ rfl rfl).evaluates (by decide) 0⟩

/-- The tag of truth is bound to something else, and stands for itself all the same. -/
theorem tag_not_read_back :
    let start : Machine := .ofStore .fresh
    let body : Expr := .list [.symbol "quote", .symbol "a"]
    ∃ later, evaluate 2 (.list [.symbol "define", .symbol "#t", body]) Store.globalFrame start =
        .ok (.symbol "#t") later ∧
      evaluate 1 body Store.globalFrame start = .ok (.symbol "a") start ∧
      evaluate 1 (.symbol "#t") Store.globalFrame later = .ok (.boolean true) later :=
  ⟨_, evaluate_define rfl, rfl, rfl⟩

end LexLisp
