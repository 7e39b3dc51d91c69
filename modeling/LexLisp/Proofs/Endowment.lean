/-
Module: LexLisp.Proofs.Endowment
Purpose: The primitives are never lost. An environment is made with a global frame of its own that binds the
  primitives, and then whatever its maker wants, also under their names. A caller may make several and hand values
  of one to another, so a closure may capture a frame of another environment, and then a call makes frames there.
  Whatever is asked for afterwards, no outermost frame loses a name; so every outermost frame binds the name of
  every primitive, and to ensure the primitives from any frame changes nothing.
Main exports: Store.Endowed, Store.create, Client.Reached, Store.Endowed.ensurePrimitives_eq, primitives_never_lost
-/
import LexLisp.Proofs.ClientRun
import LexLisp.Proofs.Isolation
import Mathlib.Data.List.Basic

namespace LexLisp

namespace Store

/-!
### Endowed stores
-/

/-- Every outermost frame binds the names of all primitives. -/
def Endowed (store : Store) : Prop :=
  ∀ frame, frame < store.size → store.parent? frame = none →
    ∀ primitive : Primitive, store.bindsLocally frame primitive.name = true

/-- A store that grows makes no outermost frame and unbinds no name. -/
theorem Endowed.extends {before after : Store} (endowed : before.Endowed) (grown : before.Extends after) :
    after.Endowed := by
  intro frame made outermost primitive
  rcases Nat.lt_or_ge frame before.size with old | new
  · rw [grown.parent?_eq frame old] at outermost
    exact grown.keeps_names frame primitive.name (endowed frame old outermost primitive)
  · exact absurd outermost (grown.new_inside frame new made)

/-- The outermost frame of every chain binds the names of all primitives. -/
theorem Endowed.bindsLocally_global {store : Store} (endowed : store.Endowed) (ordered : store.ParentsEarlier)
    {frame : FrameId} (made : frame < store.size) (primitive : Primitive) :
    store.bindsLocally (store.global frame) primitive.name = true := by
  obtain ⟨rootMade, outermost⟩ := outermost_global ordered made
  exact endowed _ rootMade outermost primitive

/-- Where no primitive is missing, to ensure them changes nothing. -/
theorem Endowed.ensurePrimitives_eq {store : Store} (endowed : store.Endowed) (ordered : store.ParentsEarlier)
    {frame : FrameId} (made : frame < store.size) : store.ensurePrimitives frame = store := by
  apply List.foldl_fixed'
  intro primitive
  rw [if_pos (endowed.bindsLocally_global ordered made primitive)]

/-!
### New environments
-/

/-- A store without frames. -/
def vacant : Store := ⟨#[], 0⟩

/-- The store with a new environment: an outermost frame that binds the primitives and then the given names. -/
def create (store : Store) (entries : List (String × Value)) : Store :=
  store.renew.defineAll store.size entries

/-- The first environment of all is the store that `withBindings` makes. -/
theorem create_vacant (entries : List (String × Value)) : vacant.create entries = withBindings entries := rfl

@[simp] theorem size_openRoot (store : Store) : store.openRoot.size = store.size + 1 := by
  simp [openRoot, size]

/-- A new outermost frame binds nothing and has no parent, and neither did it while it was not made. -/
theorem bind_frame?_openRoot {α : Type} (store : Store) (frame : FrameId) {part : Frame → Option α}
    (nothing : part ⟨.empty, none⟩ = none) :
    (store.openRoot.frame? frame).bind part = (store.frame? frame).bind part := by
  rw [frame?_openRoot]
  split
  · next new =>
      rw [frame?_eq_none_iff.mpr (Nat.le_of_eq new.symm)]
      exact nothing
  · rfl

@[simp] theorem local?_openRoot (store : Store) (frame : FrameId) (name : String) :
    store.openRoot.local? frame name = store.local? frame name :=
  bind_frame?_openRoot store frame rfl

@[simp] theorem parent?_openRoot (store : Store) (frame : FrameId) :
    store.openRoot.parent? frame = store.parent? frame :=
  bind_frame?_openRoot store frame rfl

theorem KnowsAll.openRoot {store : Store} {value : Value} (known : store.KnowsAll value) :
    store.openRoot.KnowsAll value :=
  known.mono fun _ here => ⟨by simpa using Nat.lt_succ_of_lt here.1, here.2⟩

theorem WellFormed.openRoot {store : Store} (wellFormed : store.WellFormed) : store.openRoot.WellFormed where
  ordered := ordered_openRoot wellFormed.ordered
  known frame name value found := by
    rw [local?_openRoot] at found
    exact KnowsAll.openRoot (wellFormed.known frame name value found)

/-- The primitives with their names. -/
def primitiveEntries : List (String × Value) :=
  Primitive.all.map fun primitive => (primitive.name, .primitive primitive)

theorem mem_primitiveEntries (primitive : Primitive) : (primitive.name, .primitive primitive) ∈ primitiveEntries := by
  have listed : primitive ∈ Primitive.all := by cases primitive <;> decide
  exact List.mem_map_of_mem listed

/-- A new environment is a frame that binds the primitives first and the given names after them. -/
theorem create_eq (store : Store) (entries : List (String × Value)) :
    store.create entries = store.openRoot.defineAll store.size (primitiveEntries ++ entries) := by
  simp only [create, renew, installPrimitives, defineAll, primitiveEntries, List.foldl_append, List.foldl_map]

theorem extends_create (store : Store) (entries : List (String × Value)) :
    store.openRoot.Extends (store.create entries) := by
  rw [create_eq]
  exact Extends.defineAll _ (by simp)

/-- A new environment may be given values of the others. -/
theorem WellFormed.create {store : Store} (wellFormed : store.WellFormed) {entries : List (String × Value)}
    (known : ∀ entry ∈ entries, store.KnowsAll entry.2) : (store.create entries).WellFormed := by
  rw [create_eq]
  apply WellFormed.defineAll _ wellFormed.openRoot (by simp)
  intro entry member
  rcases List.mem_append.mp member with listed | given
  · obtain ⟨primitive, _, rfl⟩ := List.mem_map.mp listed
    exact Value.each_primitive primitive
  · exact KnowsAll.openRoot (known entry given)

theorem bindsLocally_defineAll {frame : FrameId} {entry : String × Value} :
    ∀ (entries : List (String × Value)) {store : Store}, frame < store.size → entry ∈ entries →
      (store.defineAll frame entries).bindsLocally frame entry.1 = true
  | (name, value) :: entries, store, made, member => by
      have stillMade : frame < (store.define frame name value).size := by simpa using made
      rcases List.mem_cons.mp member with rfl | behind
      · have bound : (store.define frame name value).bindsLocally frame name = true := by
          simp [bindsLocally, local?_define made]
        exact (Extends.defineAll entries stillMade).keeps_names frame name bound
      · exact bindsLocally_defineAll entries stillMade behind

/-- A new environment is endowed, whatever else its maker binds, and the others stay so. -/
theorem Endowed.create {store : Store} (endowed : store.Endowed) (entries : List (String × Value)) :
    (store.create entries).Endowed := by
  have grown := extends_create store entries
  intro frame made outermost primitive
  rcases Nat.lt_or_ge frame store.openRoot.size with present | inside
  · rw [grown.parent?_eq frame present, parent?_openRoot] at outermost
    rw [size_openRoot] at present
    rcases Nat.lt_or_eq_of_le (Nat.le_of_lt_succ present) with old | rfl
    · have bound : store.openRoot.bindsLocally frame primitive.name = true := by
        rw [bindsLocally, local?_openRoot]
        exact endowed frame old outermost primitive
      exact grown.keeps_names frame primitive.name bound
    · rw [create_eq]
      have member := List.mem_append_left entries (mem_primitiveEntries primitive)
      exact bindsLocally_defineAll _ (by simp) member
  · exact absurd outermost (grown.new_inside frame inside made)

end Store

namespace Client

/-- The client with a new environment, of which it holds the global frame. -/
def create (client : Client) (entries : List (String × Value)) : Client :=
  { client.withStore (client.store.create entries) with frames := client.store.size :: client.frames }

/-- What a caller can come to that starts with nothing: it makes environments out of values that it holds, and makes
    requests that it may make, which may fail. -/
inductive Reached : Client → Prop where
  | start : Reached ⟨.ofStore .vacant, [], []⟩
  | create {client : Client} (reached : Reached client) (entries : List (String × Value))
      (held : ∀ entry ∈ entries, client.Holds entry.2) : Reached (client.create entries)
  | step {client : Client} (reached : Reached client) (request : Request) (allowed : client.Allows request) :
      Reached (client.perform request)

theorem Grounded.create {client : Client} (grounded : client.Grounded) {entries : List (String × Value)}
    (held : ∀ entry ∈ entries, client.Holds entry.2) : (client.create entries).Grounded := by
  have known : ∀ entry ∈ entries, client.store.KnowsAll entry.2 :=
    fun entry member => grounded.knowsAll (held entry member)
  have grown := Store.extends_create client.store entries
  have larger : client.store.size < (client.store.create entries).size := 
    Nat.lt_of_lt_of_le (by simp) grown.size_le
  refine ⟨grounded.wellFormed.create known, List.forall_mem_cons.mpr ⟨larger, ?_⟩, ?_⟩
  · intro frame member
    exact Nat.lt_trans (grounded.frames_made frame member) larger
  · intro value member
    exact (Store.KnowsAll.openRoot (grounded.values_known value member)).mono fun _ here => here.extends grown

/-- A caller comes only to well-formed stores in which every outermost frame is endowed. -/
theorem Reached.endowed {client : Client} (reached : client.Reached) : client.Grounded ∧ client.store.Endowed := by
  induction reached with
  | start =>
      have nothing : ∀ frame, ¬ frame < Store.vacant.size := fun frame => Nat.not_lt_zero frame
      refine ⟨⟨⟨?_, ?_⟩, fun _ member => (nomatch member), fun _ member => (nomatch member)⟩, ?_⟩
      · intro frame parent link
        exact absurd (Store.lt_size_of_parent? link) (nothing frame)
      · intro frame name value found
        exact absurd (Store.lt_size_of_local? found) (nothing frame)
      · intro frame made
        exact absurd made (nothing frame)
  | create _ entries held inductionHypothesis =>
      exact ⟨inductionHypothesis.1.create held, inductionHypothesis.2.create entries⟩
  | step _ request allowed inductionHypothesis =>
      obtain ⟨grounded, grown⟩ := inductionHypothesis.1.perform allowed
      exact ⟨grounded, inductionHypothesis.2.extends grown⟩

end Client

/-- The primitives are never lost. However many environments a caller has made, out of whatever values, and whatever
    it has asked for since, with success or without: from every frame there is, the outermost frame binds the name of
    every primitive, and to ensure the primitives leaves the store as it is. -/
theorem primitives_never_lost {client : Client} (reached : client.Reached) {frame : FrameId}
    (made : frame < client.store.size) :
    (∀ primitive : Primitive, client.store.bindsLocally (client.store.global frame) primitive.name = true) ∧
      client.store.ensurePrimitives frame = client.store := by
  obtain ⟨grounded, endowed⟩ := reached.endowed
  have ordered := grounded.wellFormed.ordered
  exact ⟨endowed.bindsLocally_global ordered made, endowed.ensurePrimitives_eq ordered made⟩

/-- A closure of one environment stands for `+` in another. A call of it makes a frame inside the first environment,
    and then a sequence in the second binds `cons` anew and fails. Nothing is to be ensured from the new frame or from
    the second environment, and `+` stays the closure. -/
theorem primitives_never_lost_shared :
    let closure : Closure := ⟨0, [], .symbol "car", 0⟩
    let first := Client.create ⟨.ofStore .vacant, [], []⟩ []
    let given := first.perform (.evaluate 1 (.list [.symbol "lambda", .list [], .symbol "car"]) 0)
    let second := given.create [("+", .closure closure)]
    let called := second.perform (.evaluate 2 (.list [.symbol "+"]) 1)
    let client := called.perform (.evaluate 3 (.list [.symbol "begin",
      .list [.symbol "define", .symbol "cons", .symbol "#f"], .symbol "missing"]) 1)
    client.store.global 2 = 0 ∧ client.store.ensurePrimitives 2 = client.store ∧
      client.store.global 1 = 1 ∧ client.store.ensurePrimitives 1 = client.store ∧
      client.store.lookup? 1 "+" = some (.closure closure) := by
  -- The clients of the statement get no names here: what each of them holds is found by computation.
  have first : Client.Reached (Client.create ⟨.ofStore .vacant, [], []⟩ []) :=
    .create .start [] fun _ member => nomatch member
  have given := first.step (.evaluate 1 (.list [.symbol "lambda", .list [], .symbol "car"]) 0)
    ⟨List.forall_mem_singleton.mpr List.mem_cons_self, fun _ member => nomatch member⟩
  have second := given.create [("+", .closure ⟨0, [], .symbol "car", 0⟩)]
    (List.forall_mem_singleton.mpr fun _ within => ⟨_, List.mem_cons_self, within⟩)
  have called := second.step (.evaluate 2 (.list [.symbol "+"]) 1)
    ⟨List.forall_mem_singleton.mpr List.mem_cons_self, fun _ member => nomatch member⟩
  have reached := called.step (.evaluate 3 (.list [.symbol "begin",
      .list [.symbol "define", .symbol "cons", .symbol "#f"], .symbol "missing"]) 1)
    ⟨List.forall_mem_singleton.mpr List.mem_cons_self, fun _ member => nomatch member⟩
  have inner := primitives_never_lost reached (show 2 < 3 by decide)
  have outer := primitives_never_lost reached (show 1 < 3 by decide)
  exact ⟨rfl, inner.2, rfl, outer.2, rfl⟩

end LexLisp
