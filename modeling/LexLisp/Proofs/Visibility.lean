/-
Module: LexLisp.Proofs.Visibility
Purpose: Who sees a write. Frames are shared: closures and callers hold different frames whose ways outwards run
  together somewhere. A definition is seen from exactly those frames that meet the written frame before any other
  that binds the name; an assignment is a definition in the frame that the writer itself meets first. For every
  other reader, and for every other name, nothing changes.
Main exports: Store.Exposes, Store.Nearest, Store.Publishes, Store.publishes_define, write_visibility
-/
import LexLisp.Proofs.WellFormed

namespace LexLisp

namespace Store

/-!
### The nearest binding

`Store.lookup?` and `Store.nearest?` are searches. Here it is said what they find, by the way outwards.
-/

theorem Path.eq_chain {store : Store} (ordered : store.ParentsEarlier) {frame : FrameId} {links : List FrameId}
    (path : store.Path frame links) : links = store.chain frame := by
  induction path with
  | last made outermost => rw [chain_of_root made outermost]
  | next link _ inductionHypothesis => rw [chain_of_parent ordered link, inductionHypothesis]

/-- On the way outwards from a frame another one is met, and none before it binds the name. -/
def Exposes (store : Store) (frame link : FrameId) (name : String) : Prop :=
  ∃ nearer outer, store.Path frame (nearer ++ link :: outer) ∧
    ∀ other ∈ nearer, store.bindsLocally other name = false

/-- The first frame on the way outwards that binds the name. -/
def Nearest (store : Store) (frame link : FrameId) (name : String) : Prop :=
  store.Exposes frame link name ∧ store.bindsLocally link name = true

theorem nearest?_eq_some_iff {store : Store} (ordered : store.ParentsEarlier) {frame link : FrameId}
    (made : frame < store.size) {name : String} :
    store.nearest? frame name = some link ↔ store.Nearest frame link name := by
  rw [nearest?, List.find?_eq_some_iff_append]
  constructor
  · rintro ⟨bound, nearer, outer, split, unbound⟩
    refine ⟨⟨nearer, outer, split ▸ path_chain ordered frame made, ?_⟩, bound⟩
    intro other member
    simpa using unbound other member
  · rintro ⟨⟨nearer, outer, path, unbound⟩, bound⟩
    refine ⟨bound, nearer, outer, (path.eq_chain ordered).symm, ?_⟩
    intro other member
    simpa using unbound other member

theorem local?_eq_none_of_not_bindsLocally {store : Store} {frame : FrameId} {name : String}
    (unbound : store.bindsLocally frame name = false) : store.local? frame name = none := by
  simpa [bindsLocally] using unbound

/-!
### What a reader sees of a write
-/

/-- A value was written to a name: some readers now see it there, and all else is seen as before. -/
structure Publishes (before after : Store) (name : String) (value : Value) (readers : FrameId → Prop) : Prop where
  seen : ∀ reader, readers reader → after.lookup? reader name = some value
  unseen : ∀ reader other, ¬ (other = name ∧ readers reader) →
    after.lookup? reader other = before.lookup? reader other

/-- A search that comes by the written frame before it finds anything else finds the new value. -/
theorem findSome?_define {store : Store} {frame : FrameId} (made : frame < store.size) (name : String)
    (value : Value) (outer : List FrameId) :
    ∀ nearer : List FrameId, (∀ other ∈ nearer, store.bindsLocally other name = false) →
      (nearer ++ frame :: outer).findSome? (fun link => (store.define frame name value).local? link name) =
        some value
  | [], _ => by simp [local?_define made]
  | first :: nearer, unbound => by
      obtain ⟨here, others⟩ := List.forall_mem_cons.mp unbound
      rw [List.cons_append, List.findSome?_cons, local?_define made]
      by_cases same : first = frame
      · simp [same]
      · simp only [same, false_and, if_false, local?_eq_none_of_not_bindsLocally here]
        exact findSome?_define made name value outer nearer others

/-- A search that finds something before it comes by the written frame, or never comes by it, or is for another
    name, finds what it found. -/
theorem findSome?_define_of_hidden {store : Store} {frame : FrameId} (made : frame < store.size)
    (name other : String) (value : Value) :
    ∀ links : List FrameId,
      ¬ (other = name ∧ ∃ nearer outer, links = nearer ++ frame :: outer ∧
        ∀ link ∈ nearer, store.bindsLocally link name = false) →
      links.findSome? (fun link => (store.define frame name value).local? link other) =
        links.findSome? fun link => store.local? link other
  | [], _ => rfl
  | first :: rest, hidden => by
      have untouched : ¬ (first = frame ∧ other = name) := by
        rintro ⟨rfl, same⟩
        exact hidden ⟨same, [], rest, rfl, fun link member => nomatch member⟩
      rw [List.findSome?_cons, List.findSome?_cons, local?_define made, if_neg untouched]
      cases here : store.local? first other with
      | some found => rfl
      | none =>
          apply findSome?_define_of_hidden made name other value rest
          rintro ⟨rfl, nearer, outer, rfl, unbound⟩
          refine hidden ⟨rfl, first :: nearer, outer, rfl, List.forall_mem_cons.mpr ⟨?_, unbound⟩⟩
          rw [bindsLocally, here]
          rfl

/-- A definition is seen from the frames that meet its frame before any other that binds the name. -/
theorem publishes_define {store : Store} (ordered : store.ParentsEarlier) {frame : FrameId}
    (made : frame < store.size) (name : String) (value : Value) :
    store.Publishes (store.define frame name value) name value fun reader => store.Exposes reader frame name where
  seen reader exposed := by
    obtain ⟨nearer, outer, path, unbound⟩ := exposed
    rw [lookup?, chain_define, ← path.eq_chain ordered]
    exact findSome?_define made name value outer nearer unbound
  unseen reader other elsewhere := by
    rw [lookup?, lookup?, chain_define]
    apply findSome?_define_of_hidden made
    rintro ⟨same, nearer, outer, split, unbound⟩
    have readerMade : reader < store.size := by
      rcases Nat.lt_or_ge reader store.size with inside | beyond
      · exact inside
      · rw [chain, chainWithin_of_size_le beyond] at split
        simp at split
    exact elsewhere ⟨same, nearer, outer, split ▸ path_chain ordered reader readerMade, unbound⟩

/-- A definition adds its name to its frame, and no frame gets or loses another. -/
theorem bindsLocally_define_iff {store : Store} {frame : FrameId} (made : frame < store.size) (name : String)
    (value : Value) (link : FrameId) (other : String) :
    (store.define frame name value).bindsLocally link other = true ↔
      store.bindsLocally link other = true ∨ (link = frame ∧ other = name) := by
  rw [bindsLocally, local?_define made]
  by_cases written : link = frame ∧ other = name
  · simp [written]
  · simp [written, bindsLocally]

theorem Nearest.lt_size {store : Store} {frame link : FrameId} {name : String}
    (nearest : store.Nearest frame link name) : link < store.size := by
  obtain ⟨_, bound⟩ := Option.isSome_iff_exists.mp nearest.2
  exact lt_size_of_local? bound

/-- A definition in the frame that a writer meets first is seen by those that meet the same frame first. -/
theorem Nearest.publishes_define {store : Store} (ordered : store.ParentsEarlier) {frame link : FrameId}
    {name : String} (nearest : store.Nearest frame link name) (value : Value) :
    store.Publishes (store.define link name value) name value fun reader => store.Nearest reader link name := by
  have published := Store.publishes_define ordered nearest.lt_size name value
  refine ⟨fun reader sees => published.seen reader sees.1, ?_⟩
  intro reader other elsewhere
  apply published.unseen
  rintro ⟨same, exposed⟩
  exact elsewhere ⟨same, exposed, nearest.2⟩

/-- No frame gets a name by such a definition. -/
theorem Nearest.bindsLocally_define {store : Store} {frame link : FrameId} {name : String}
    (nearest : store.Nearest frame link name) (value : Value) (inner : FrameId) (other : String) :
    (store.define link name value).bindsLocally inner other = store.bindsLocally inner other := by
  rw [Bool.eq_iff_iff, bindsLocally_define_iff nearest.lt_size]
  constructor
  · rintro (bound | ⟨rfl, rfl⟩)
    · exact bound
    · exact nearest.2
  · exact Or.inl

end Store

/-- An assignment fails for an unbound variable exactly where there is none to write to. -/
theorem Eval.assign_eq_error_iff {machine : Machine} {writer : FrameId} {name : String} {value : Value} :
    Eval.assign writer name value machine = .error (.fault (.unboundVariable name)) machine ↔
      ¬ machine.store.Binds writer name := by
  rw [← Store.nearest?_eq_none_iff]
  constructor
  · intro failed
    cases found : machine.store.nearest? writer name with
    | none => rfl
    | some link =>
        rw [Eval.assign_some found] at failed
        cases failed
  · exact Eval.assign_none

/-- What a write does to every reader. An assignment fails exactly where no frame of the writer's chain binds
    the name, and then nothing has changed; otherwise it is seen from the frames that have the same nearest
    binding as the writer, and no frame gets or loses a name. A definition is seen from the frames that have the
    writer's frame on their chain behind no binding of the name, and it adds the name to that frame only. No
    other reader and no other name is affected by either. -/
theorem write_visibility {machine : Machine} (wellFormed : machine.store.WellFormed) {writer : FrameId}
    (made : writer < machine.store.size) (name : String) (value : Value) :
    (Eval.assign writer name value machine = .error (.fault (.unboundVariable name)) machine ↔
      ∀ link ∈ machine.store.chain writer, machine.store.bindsLocally link name = false) ∧
    ((∃ link ∈ machine.store.chain writer, machine.store.bindsLocally link name = true) →
      ∃ link later, machine.store.Nearest writer link name ∧
        Eval.assign writer name value machine = .ok () later ∧
        machine.store.Publishes later.store name value (fun reader => machine.store.Nearest reader link name) ∧
        ∀ frame other, later.store.bindsLocally frame other = machine.store.bindsLocally frame other) ∧
    ∃ later, Eval.define writer name value machine = .ok () later ∧
      machine.store.Publishes later.store name value (fun reader => machine.store.Exposes reader writer name) ∧
      ∀ frame other, later.store.bindsLocally frame other = true ↔
        machine.store.bindsLocally frame other = true ∨ (frame = writer ∧ other = name) := by
  have ordered := wellFormed.ordered
  refine ⟨?_, ?_, _, rfl, Store.publishes_define ordered made name value,
    Store.bindsLocally_define_iff made name value⟩
  · rw [Eval.assign_eq_error_iff]
    simp [Store.Binds]
  · intro binds
    cases found : machine.store.nearest? writer name with
    | none => exact absurd binds (Store.nearest?_eq_none_iff.mp found)
    | some link =>
        have nearest := (Store.nearest?_eq_some_iff ordered made).mp found
        exact ⟨link, _, nearest, Eval.assign_some found, nearest.publishes_define ordered value,
          nearest.bindsLocally_define value⟩

/-- Two frames inside one that binds a name: one of them binds the name again, the other assigns it. The frame
    around both shows the new value, the one that binds the name again shows its own. -/
theorem write_visibility_shadowed :
    let outer := (Store.fresh.enter Store.globalFrame ["x"] [.symbol "old"]).2
    let inner := (outer.enter 1 ["x"] [.symbol "own"]).2
    let store := (inner.enter 1 [] []).2
    store.WellFormed ∧ 3 < store.size ∧
      ∃ later, Eval.assign 3 "x" (.symbol "new") ⟨store, #[]⟩ = .ok () later ∧
        later.store.lookup? 1 "x" = some (.symbol "new") ∧ later.store.lookup? 2 "x" = some (.symbol "own") := by
  intro outer inner store
  have symbols : ∀ (name : String) {before : Store}, ∀ value ∈ [Value.symbol name], before.KnowsAll value := by
    intro name before value member
    rw [List.mem_singleton.mp member]
    exact Value.each_symbol name
  have wellFormed : store.WellFormed :=
    ((Store.wellFormed_fresh.enter (by decide) _ (symbols "old")).enter (by decide) _ (symbols "own")).enter
      (by decide) [] (fun _ member => nomatch member)
  have nearest : ∀ {frame link : FrameId}, frame < store.size →
      (store.nearest? frame "x" = some link ↔ store.Nearest frame link "x") :=
    fun made => Store.nearest?_eq_some_iff wellFormed.ordered made
  obtain ⟨link, later, atWriter, assigned, published, _⟩ :=
    (@write_visibility ⟨store, #[]⟩ wellFormed 3 (by decide) "x" (.symbol "new")).2.1
      ⟨1, by decide, by decide⟩
  obtain rfl : 1 = link := Option.some.inj ((nearest (by decide)).mpr atWriter)
  refine ⟨wellFormed, by decide, later, assigned, ?_, ?_⟩
  · exact published.seen 1 ((nearest (by decide)).mp (by decide))
  · rw [published.unseen 2 "x" fun both => nomatch (nearest (by decide)).mpr both.2]
    rfl

end LexLisp
