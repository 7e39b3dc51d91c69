/-
Module: LexLisp.Proofs.Chain
Purpose: Parent chains and how stores grow. Where every parent was made before its child, the bounded walk
  of `Store.chain` is the whole walk outwards, and all that is said of chains follows from two equations: one
  for a frame with a parent, one for a frame without. A store grows if it loses no frame, no parent link and
  no bound name; chains of old frames are the same in a store that has grown.
Main exports: Store.size, Store.ParentsEarlier, Store.Path, Store.Binds, Store.Extends
-/
import LexLisp.Store

namespace LexLisp

/-!
### Bindings of a call

The frame of a call binds every parameter, and what it binds comes from the operands.
-/

namespace Bindings

/-- A name of the entries is bound once they are all inserted. -/
theorem get?_insertAll_isSome {name : String} :
    ∀ (entries : List (String × Value)) (bindings : Bindings),
      (name ∈ entries.map Prod.fst ∨ (bindings.get? name).isSome) →
        ((bindings.insertAll entries).get? name).isSome
  | [], bindings, known => by
      simpa [insertAll] using known
  | (first, value) :: rest, bindings, known => by
      apply get?_insertAll_isSome rest (bindings.insert first value)
      rw [get?_insert]
      by_cases same : name = first
      · exact Or.inr (by simp [same])
      · simpa [same] using known

/-- What is bound after the entries are inserted was bound before, or is the value of an entry. -/
theorem get?_insertAll_eq_some {name : String} {value : Value} :
    ∀ (entries : List (String × Value)) (bindings : Bindings),
      (bindings.insertAll entries).get? name = some value →
        value ∈ entries.map Prod.snd ∨ bindings.get? name = some value
  | [], _, found => Or.inr found
  | (first, inserted) :: rest, bindings, found => by
      rcases get?_insertAll_eq_some rest (bindings.insert first inserted) found with
        member | known
      · exact Or.inl (List.mem_cons_of_mem _ member)
      · rw [get?_insert] at known
        split at known
        · cases known
          exact Or.inl List.mem_cons_self
        · exact Or.inr known

/-- A name that is bound after the entries are inserted is a name of an entry, or was bound before. -/
theorem mem_of_get?_insertAll {name : String} :
    ∀ (entries : List (String × Value)) (bindings : Bindings),
      ((bindings.insertAll entries).get? name).isSome →
        name ∈ entries.map Prod.fst ∨ (bindings.get? name).isSome
  | [], _, bound => Or.inr bound
  | (first, value) :: rest, bindings, bound => by
      rcases mem_of_get?_insertAll rest (bindings.insert first value) bound with member | known
      · exact Or.inl (List.mem_cons_of_mem _ member)
      · rw [get?_insert] at known
        split at known
        · next same => exact Or.inl (same ▸ List.mem_cons_self)
        · exact Or.inr known

end Bindings

namespace Store

/-!
### What each operation does to each frame
-/

/-- How many frames were made. -/
def size (store : Store) : Nat := store.frames.size

/-- The frames are those below the size of the store. -/
theorem frame?_eq_none_iff {store : Store} {frame : FrameId} :
    store.frame? frame = none ↔ store.size ≤ frame := by
  simp [frame?, size]

theorem lt_size_of_frame? {store : Store} {frame : FrameId} {contents : Frame}
    (found : store.frame? frame = some contents) : frame < store.size := by
  rcases Nat.lt_or_ge frame store.size with made | beyond
  · exact made
  · rw [frame?_eq_none_iff.mpr beyond] at found
    cases found

/-- A frame below the size of the store is there. -/
theorem exists_frame? {store : Store} {frame : FrameId} (made : frame < store.size) :
    ∃ contents, store.frame? frame = some contents := by
  cases found : store.frame? frame with
  | none => exact absurd made (Nat.not_lt.mpr (frame?_eq_none_iff.mp found))
  | some contents => exact ⟨contents, rfl⟩

theorem lt_size_of_local? {store : Store} {frame : FrameId} {name : String} {value : Value}
    (found : store.local? frame name = some value) : frame < store.size := by
  obtain ⟨contents, made, _⟩ := Option.bind_eq_some_iff.mp found
  exact lt_size_of_frame? made

theorem lt_size_of_parent? {store : Store} {frame parent : FrameId}
    (link : store.parent? frame = some parent) : frame < store.size := by
  obtain ⟨contents, made, _⟩ := Option.bind_eq_some_iff.mp link
  exact lt_size_of_frame? made

theorem local?_of_frame? {store : Store} {frame : FrameId} {contents : Frame}
    (found : store.frame? frame = some contents) (name : String) :
    store.local? frame name = contents.bindings.get? name := by
  rw [local?, found]
  rfl

/-- What a frame binds is a matter of the frame. -/
theorem local?_congr {store other : Store} {frame : FrameId} (same : other.frame? frame = store.frame? frame)
    (name : String) : other.local? frame name = store.local? frame name := by
  rw [local?, same]
  rfl

theorem parent?_of_frame? {store : Store} {frame : FrameId} {contents : Frame}
    (found : store.frame? frame = some contents) : store.parent? frame = contents.parent := by
  rw [parent?, found]
  rfl

theorem parent?_congr {store other : Store} {frame : FrameId} (same : other.frame? frame = store.frame? frame) :
    other.parent? frame = store.parent? frame := by
  rw [parent?, same]
  rfl

@[simp] theorem size_define (store : Store) (frame : FrameId) (name : String) (value : Value) :
    (store.define frame name value).size = store.size := by
  simp [size, define]

@[simp] theorem closures_define (store : Store) (frame : FrameId) (name : String) (value : Value) :
    (store.define frame name value).closures = store.closures := rfl

@[simp] theorem parent?_define (store : Store) (frame other : FrameId) (name : String) (value : Value) :
    (store.define frame name value).parent? other = store.parent? other := by
  unfold parent?
  rw [frame?_define]
  cases store.frame? other with
  | none => rfl
  | some contents => by_cases same : frame = other <;> simp [same]

/-- A definition changes no other frame. -/
theorem frame?_define_of_ne {store : Store} {frame other : FrameId} (different : other ≠ frame)
    (name : String) (value : Value) :
    (store.define frame name value).frame? other = store.frame? other := by
  rw [frame?_define]
  cases store.frame? other with
  | none => rfl
  | some contents => simp [Ne.symm different]

/-- After a definition the frame says the new value of the name, and all else is as it was. -/
theorem local?_define {store : Store} {frame : FrameId} (made : frame < store.size)
    (other : FrameId) (name wanted : String) (value : Value) :
    (store.define frame name value).local? other wanted =
      if other = frame ∧ wanted = name then some value else store.local? other wanted := by
  unfold local?
  rw [frame?_define]
  by_cases same : frame = other
  · subst same
    obtain ⟨contents, found⟩ := exists_frame? made
    simp [found]
  · cases store.frame? other with
    | none => simp [Ne.symm same]
    | some contents => simp [same, Ne.symm same]

/-- A call makes one frame, the next, with the operands in it, and leaves the others. -/
theorem frame?_enter (store : Store) (home : FrameId) (names : List String) (values : List Value)
    (other : FrameId) :
    (store.enter home names values).2.frame? other =
      if other = store.size then some ⟨Bindings.empty.insertAll (names.zip values), some home⟩
      else store.frame? other := by
  simp only [enter, push, frame?, size, Array.getElem?_push]
  rfl

@[simp] theorem size_enter (store : Store) (home : FrameId) (names : List String)
    (values : List Value) : (store.enter home names values).2.size = store.size + 1 := by
  simp [enter, push, size]

@[simp] theorem closures_enter (store : Store) (home : FrameId) (names : List String)
    (values : List Value) : (store.enter home names values).2.closures = store.closures := rfl

theorem frame?_enter_of_lt {store : Store} {other : FrameId} (made : other < store.size)
    (home : FrameId) (names : List String) (values : List Value) :
    (store.enter home names values).2.frame? other = store.frame? other := by
  rw [frame?_enter, if_neg (Nat.ne_of_lt made)]

theorem parent?_enter (store : Store) (home : FrameId) (names : List String) (values : List Value)
    (other : FrameId) :
    (store.enter home names values).2.parent? other =
      if other = store.size then some home else store.parent? other := by
  unfold parent?
  rw [frame?_enter]
  split <;> rfl

/-- What the frame of a call binds is one of the operands. -/
theorem local?_enter {store : Store} {home other : FrameId} {names : List String}
    {values : List Value} {name : String} {value : Value}
    (found : (store.enter home names values).2.local? other name = some value) :
    value ∈ values ∨ store.local? other name = some value := by
  unfold local? at found ⊢
  rw [frame?_enter] at found
  split at found
  · rcases Bindings.get?_insertAll_eq_some _ _ found with member | known
    · obtain ⟨⟨_, operand⟩, inside, rfl⟩ := List.mem_map.mp member
      exact Or.inl (List.of_mem_zip inside).2
    · cases known
  · exact Or.inr found

/-- The frame of a call binds every parameter. -/
theorem bindsLocally_enter {store : Store} {home : FrameId} {names : List String}
    {values : List Value} {name : String} (counts : names.length = values.length)
    (parameter : name ∈ names) :
    (store.enter home names values).2.bindsLocally store.size name = true := by
  unfold bindsLocally local?
  rw [frame?_enter, if_pos rfl]
  apply Bindings.get?_insertAll_isSome
  rw [List.map_fst_zip (Nat.le_of_eq counts)]
  exact Or.inl parameter

/-!
### Chains
-/

/-- Every frame's parent was made before it. -/
def ParentsEarlier (store : Store) : Prop :=
  ∀ frame parent, store.parent? frame = some parent → parent < frame

/-- The frames met on the way from a frame outwards, when that way ends. -/
inductive Path (store : Store) : FrameId → List FrameId → Prop where
  | last {frame : FrameId} (made : frame < store.size) (outermost : store.parent? frame = none) :
      Path store frame [frame]
  | next {frame parent : FrameId} {rest : List FrameId} (link : store.parent? frame = some parent)
      (onwards : Path store parent rest) : Path store frame (frame :: rest)

/-- The way outwards ends at a frame without a parent. -/
theorem Path.exists_root {store : Store} {frame : FrameId} {links : List FrameId}
    (path : store.Path frame links) :
    ∃ root, root < store.size ∧ store.parent? root = none ∧
      ∀ other, links.getLastD other = root := by
  induction path with
  | last made outermost => exact ⟨_, made, outermost, fun _ => rfl⟩
  | next link onwards inductionHypothesis =>
      obtain ⟨root, made, outermost, reached⟩ := inductionHypothesis
      refine ⟨root, made, outermost, ?_⟩
      intro other
      rw [List.getLastD_cons]
      exact reached _

theorem chainWithin_of_root {store : Store} {frame : FrameId} (made : frame < store.size)
    (outermost : store.parent? frame = none) (bound : Nat) :
    store.chainWithin (bound + 1) frame = [frame] := by
  obtain ⟨contents, found⟩ := exists_frame? made
  have noParent : contents.parent = none := by simpa [parent?, found] using outermost
  simp only [chainWithin, found, noParent]

theorem chainWithin_of_parent {store : Store} {frame parent : FrameId}
    (link : store.parent? frame = some parent) (bound : Nat) :
    store.chainWithin (bound + 1) frame = frame :: store.chainWithin bound parent := by
  obtain ⟨contents, found, linked⟩ := Option.bind_eq_some_iff.mp link
  simp only [chainWithin, found, linked]

/-- A frame that is not there has no chain. -/
theorem chainWithin_of_size_le {store : Store} {frame : FrameId} (beyond : store.size ≤ frame)
    (bound : Nat) : store.chainWithin bound frame = [] := by
  cases bound with
  | zero => rfl
  | succ bound => simp only [chainWithin, frame?_eq_none_iff.mpr beyond]

/-- Every bound that exceeds the number of a frame shows its whole chain. -/
theorem chainWithin_eq_chain {store : Store} (ordered : store.ParentsEarlier) (frame : FrameId) :
    ∀ bound, frame < bound → store.chainWithin bound frame = store.chain frame := by
  induction frame using Nat.strongRecOn with
  | ind frame inductionHypothesis =>
      intro bound enough
      obtain ⟨bound, rfl⟩ := Nat.exists_eq_add_of_lt (Nat.zero_lt_of_lt enough)
      simp only [Nat.zero_add] at enough ⊢
      by_cases made : frame < store.size
      · cases link : store.parent? frame with
        | none => simp only [chain, chainWithin_of_root made link]
        | some parent =>
            have earlier := ordered frame parent link
            have short := inductionHypothesis parent earlier frame earlier
            have long := inductionHypothesis parent earlier bound
              (Nat.lt_of_lt_of_le earlier (Nat.le_of_lt_succ enough))
            simp only [chain, chainWithin_of_parent link, short, long]
      · simp only [chain, chainWithin_of_size_le (Nat.le_of_not_lt made)]

/-- The chain of an outermost frame is that frame. -/
theorem chain_of_root {store : Store} {frame : FrameId} (made : frame < store.size)
    (outermost : store.parent? frame = none) : store.chain frame = [frame] :=
  chainWithin_of_root made outermost frame

/-- The chain of any other frame goes on with that of its parent. -/
theorem chain_of_parent {store : Store} (ordered : store.ParentsEarlier) {frame parent : FrameId}
    (link : store.parent? frame = some parent) :
    store.chain frame = frame :: store.chain parent := by
  have earlier := ordered frame parent link
  simp only [chain, chainWithin_of_parent link, chainWithin_eq_chain ordered parent frame earlier]

/-- The chain of a frame is the whole way outwards, so that way ends. -/
theorem path_chain {store : Store} (ordered : store.ParentsEarlier) (frame : FrameId)
    (made : frame < store.size) : store.Path frame (store.chain frame) := by
  induction frame using Nat.strongRecOn with
  | ind frame inductionHypothesis =>
      cases link : store.parent? frame with
      | none =>
          rw [chain_of_root made link]
          exact .last made link
      | some parent =>
          have earlier := ordered frame parent link
          rw [chain_of_parent ordered link]
          exact .next link (inductionHypothesis parent earlier (Nat.lt_trans earlier made))

/-- The last frame of a chain exists and has no parent. -/
theorem outermost_global {store : Store} (ordered : store.ParentsEarlier) {frame : FrameId}
    (made : frame < store.size) :
    store.global frame < store.size ∧ store.parent? (store.global frame) = none := by
  obtain ⟨root, rootMade, outermost, reached⟩ := (path_chain ordered frame made).exists_root
  rw [global, reached]
  exact ⟨rootMade, outermost⟩

/-- A property of a frame that passes to parents holds all along the chain. -/
theorem forall_mem_chain {store : Store} (ordered : store.ParentsEarlier) {holds : FrameId → Prop}
    (outwards : ∀ frame parent, holds frame → store.parent? frame = some parent → holds parent)
    {frame : FrameId} (here : holds frame) :
    ∀ link ∈ store.chain frame, holds link := by
  induction frame using Nat.strongRecOn with
  | ind frame inductionHypothesis =>
      intro link member
      by_cases made : frame < store.size
      · cases linked : store.parent? frame with
        | none =>
            rw [chain_of_root made linked, List.mem_singleton] at member
            exact member ▸ here
        | some parent =>
            rw [chain_of_parent ordered linked] at member
            rcases List.mem_cons.mp member with same | outer
            · exact same ▸ here
            · exact inductionHypothesis parent (ordered frame parent linked)
                (outwards frame parent here linked) link outer
      · rw [chain, chainWithin_of_size_le (Nat.le_of_not_lt made)] at member
        cases member

/-!
### Names bound along a chain
-/

/-- A frame of the chain binds the name. -/
def Binds (store : Store) (frame : FrameId) (name : String) : Prop :=
  ∃ link ∈ store.chain frame, store.bindsLocally link name = true

/-- Nothing is found just where no frame of the chain binds the name. -/
theorem nearest?_eq_none_iff {store : Store} {frame : FrameId} {name : String} :
    store.nearest? frame name = none ↔ ¬ store.Binds frame name := by
  simp [nearest?, Binds, List.find?_eq_none]

/-- A search for a value fails just there too. -/
theorem lookup?_eq_none_iff {store : Store} {frame : FrameId} {name : String} :
    store.lookup? frame name = none ↔ ¬ store.Binds frame name := by
  simp [lookup?, Binds, List.findSome?_eq_none_iff, bindsLocally]

/-- What a search finds, a frame of the chain binds. -/
theorem exists_mem_chain_of_lookup? {store : Store} {frame : FrameId} {name : String} {value : Value}
    (found : store.lookup? frame name = some value) :
    ∃ link ∈ store.chain frame, store.local? link name = some value :=
  List.exists_of_findSome?_eq_some found

/-- What is found is a frame of the chain that binds the name. -/
theorem mem_chain_of_nearest? {store : Store} {frame link : FrameId} {name : String}
    (found : store.nearest? frame name = some link) :
    link ∈ store.chain frame ∧ store.bindsLocally link name = true :=
  ⟨List.mem_of_find?_eq_some found, by simpa using List.find?_some found⟩

/-!
### Growth
-/

/-- A later store has every frame of an earlier one, with the same parent and all its names; whatever frame
    is new stands inside another. -/
structure Extends (before after : Store) : Prop where
  size_le : before.size ≤ after.size
  parent?_eq : ∀ frame, frame < before.size → after.parent? frame = before.parent? frame
  new_inside : ∀ frame, before.size ≤ frame → frame < after.size → after.parent? frame ≠ none
  keeps_names : ∀ frame name, before.bindsLocally frame name = true →
    after.bindsLocally frame name = true
  closures_le : before.closures ≤ after.closures

namespace Extends

/-- A store extends itself. -/
theorem refl (store : Store) : Extends store store :=
  ⟨Nat.le_refl _, fun _ _ => rfl, fun _ new old => absurd old (Nat.not_lt.mpr new),
    fun _ _ bound => bound, Nat.le_refl _⟩

/-- What is extended twice is extended. -/
theorem trans {first second third : Store} (early : Extends first second)
    (late : Extends second third) : Extends first third where
  size_le := Nat.le_trans early.size_le late.size_le
  parent?_eq frame made := by
    rw [late.parent?_eq frame (Nat.lt_of_lt_of_le made early.size_le), early.parent?_eq frame made]
  new_inside frame new made := by
    rcases Nat.lt_or_ge frame second.size with already | later
    · rw [late.parent?_eq frame already]
      exact early.new_inside frame new already
    · exact late.new_inside frame later made
  keeps_names frame name bound := late.keeps_names frame name (early.keeps_names frame name bound)
  closures_le := Nat.le_trans early.closures_le late.closures_le

/-- A definition extends the store: no frame is lost and no name unbound. -/
theorem define {store : Store} {frame : FrameId} (made : frame < store.size) (name : String)
    (value : Value) : Extends store (store.define frame name value) where
  size_le := by simp
  parent?_eq _ _ := by simp
  new_inside other new old := absurd (by simpa using old) (Nat.not_lt.mpr new)
  keeps_names other wanted bound := by
    unfold bindsLocally at bound ⊢
    rw [local?_define made]
    split
    · rfl
    · exact bound
  closures_le := Nat.le_refl _

/-- A call extends the store by one frame, which has a parent. -/
theorem enter (store : Store) (home : FrameId) (names : List String) (values : List Value) :
    Extends store (store.enter home names values).2 where
  size_le := by simp
  parent?_eq frame made := by rw [parent?_enter, if_neg (Nat.ne_of_lt made)]
  new_inside frame new made := by
    rw [size_enter] at made
    rw [parent?_enter, if_pos (Nat.le_antisymm (Nat.le_of_lt_succ made) new)]
    exact Option.some_ne_none home
  keeps_names frame name bound := by
    obtain ⟨value, found⟩ := Option.isSome_iff_exists.mp bound
    unfold bindsLocally local? at bound ⊢
    rwa [frame?_enter_of_lt (lt_size_of_local? found)]
  closures_le := Nat.le_refl _

theorem close (store : Store) :
    Extends store { store with closures := store.closures + 1 } :=
  ⟨Nat.le_refl _, fun _ _ => rfl, fun _ new old => absurd old (Nat.not_lt.mpr new),
    fun _ _ bound => bound, Nat.le_succ _⟩

/-- The chain of an old frame stays as it is. -/
theorem chain_eq {before after : Store} (grown : Extends before after)
    (ordered : before.ParentsEarlier) {frame : FrameId} (made : frame < before.size) :
    after.chain frame = before.chain frame := by
  have within : ∀ (bound : Nat) (start : FrameId), start < before.size →
      after.chainWithin bound start = before.chainWithin bound start := by
    intro bound
    induction bound with
    | zero => intro start _; rfl
    | succ bound inductionHypothesis =>
        intro start startMade
        have later := Nat.lt_of_lt_of_le startMade grown.size_le
        have same := grown.parent?_eq start startMade
        cases link : before.parent? start with
        | none =>
            rw [chainWithin_of_root startMade link, chainWithin_of_root later (same.trans link)]
        | some parent =>
            rw [chainWithin_of_parent link, chainWithin_of_parent (same.trans link),
              inductionHypothesis parent (Nat.lt_trans (ordered start parent link) startMade)]
  exact within (frame + 1) frame made

/-- What is bound along the chain of an old frame stays bound. -/
theorem binds {before after : Store} (grown : Extends before after)
    (ordered : before.ParentsEarlier) {frame : FrameId} (made : frame < before.size) {name : String}
    (bound : before.Binds frame name) : after.Binds frame name := by
  obtain ⟨link, member, here⟩ := bound
  refine ⟨link, ?_, grown.keeps_names link name here⟩
  rwa [grown.chain_eq ordered made]

end Extends

/-- The new frame of a call has an earlier parent, if the procedure's frame exists. -/
theorem ParentsEarlier.enter {store : Store} (ordered : store.ParentsEarlier) {home : FrameId}
    (made : home < store.size) (names : List String) (values : List Value) :
    (store.enter home names values).2.ParentsEarlier := by
  intro frame parent link
  rw [parent?_enter] at link
  split at link
  · next new =>
      cases link
      exact new ▸ made
  · exact ordered frame parent link

theorem ParentsEarlier.define {store : Store} (ordered : store.ParentsEarlier) (frame : FrameId)
    (name : String) (value : Value) : (store.define frame name value).ParentsEarlier := by
  intro other parent link
  rw [parent?_define] at link
  exact ordered other parent link

/-- The chain of the frame of a call is that frame and the chain of the procedure's frame. -/
theorem chain_enter {store : Store} (ordered : store.ParentsEarlier) {home : FrameId}
    (made : home < store.size) (names : List String) (values : List Value) :
    (store.enter home names values).2.chain store.size = store.size :: store.chain home := by
  have link : (store.enter home names values).2.parent? store.size = some home := by
    rw [parent?_enter, if_pos rfl]
  rw [chain_of_parent (ordered.enter made names values) link,
    (Extends.enter store home names values).chain_eq ordered made]

end Store

end LexLisp
