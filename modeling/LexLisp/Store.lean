/-
Module: LexLisp.Store
Purpose: Frames of bindings. A frame binds names to values and may have a parent; a name is looked for from a
  frame outwards along its chain of parents. The frames of a run are numbered in the order in which they
  were made and are never removed, so a number names the same frame for the whole run.
Main exports: Bindings, Frame, Store, Store.chain, Store.lookup?, Store.define, Store.assign?, Store.extend,
  Store.fresh
-/
import LexLisp.Fault
import LexLisp.Value

namespace LexLisp

/-!
### Bindings

The bindings of a frame are kept in the order of their names, each name once. So a frame is determined by
what its names are bound to, and its names come out sorted.
-/

/-- The entries with a name bound to a value: in the place of an older binding, or at the place where the
    order wants it. -/
def insertEntry (name : String) (value : Value) : List (String × Value) → List (String × Value)
  | [] => [(name, value)]
  | (other, bound) :: rest =>
    if name = other then (name, value) :: rest
    else if name < other then (name, value) :: (other, bound) :: rest
    else (other, bound) :: insertEntry name value rest

/-- What the first entry of a name says. -/
def lookupEntry (name : String) : List (String × Value) → Option Value
  | [] => none
  | (other, bound) :: rest => if name = other then some bound else lookupEntry name rest

/-- After an insertion the new name has the new value, and every other name what it had. -/
theorem lookupEntry_insertEntry (name other : String) (value : Value) (entries : List (String × Value)) :
    lookupEntry other (insertEntry name value entries) =
      if other = name then some value else lookupEntry other entries := by
  induction entries with
  | nil => rfl
  | cons entry rest ih =>
    obtain ⟨bound, old⟩ := entry
    unfold insertEntry
    by_cases equal : name = bound
    · subst equal
      by_cases same : other = name <;> simp [lookupEntry, same]
    · by_cases smaller : name < bound
      · simp [lookupEntry, equal, smaller]
      · by_cases same : other = name
        · subst same
          simp [lookupEntry, equal, smaller, ih]
        · simp [lookupEntry, equal, smaller, ih, same]

/-- A name of the entries after an insertion is the new name or an old one. -/
theorem fst_mem_of_mem_insertEntry {name : String} {value : Value} {entry : String × Value} :
    ∀ {entries : List (String × Value)}, entry ∈ insertEntry name value entries →
      entry.1 = name ∨ entry ∈ entries
  | [], member => by
    simp only [insertEntry, List.mem_singleton] at member
    exact Or.inl (by rw [member])
  | (other, bound) :: rest, member => by
    unfold insertEntry at member
    split at member
    · rcases List.mem_cons.mp member with equal | inside
      · exact Or.inl (by rw [equal])
      · exact Or.inr (List.mem_cons_of_mem _ inside)
    · split at member
      · rcases List.mem_cons.mp member with equal | inside
        · exact Or.inl (by rw [equal])
        · exact Or.inr inside
      · rcases List.mem_cons.mp member with equal | inside
        · exact Or.inr (by rw [equal]; exact List.mem_cons_self)
        · rcases fst_mem_of_mem_insertEntry inside with equal | old
          · exact Or.inl equal
          · exact Or.inr (List.mem_cons_of_mem _ old)

/-- An insertion keeps the entries in strict order of their names. -/
theorem pairwise_insertEntry (name : String) (value : Value) :
    ∀ {entries : List (String × Value)}, entries.Pairwise (fun first second => first.1 < second.1) →
      (insertEntry name value entries).Pairwise (fun first second => first.1 < second.1)
  | [], _ => by simp [insertEntry]
  | (other, bound) :: rest, sorted => by
    obtain ⟨least, sortedRest⟩ := List.pairwise_cons.mp sorted
    unfold insertEntry
    split
    · next equal =>
      exact List.pairwise_cons.mpr ⟨fun entry member => equal ▸ least entry member, sortedRest⟩
    · next different =>
      split
      · next smaller =>
        refine List.pairwise_cons.mpr ⟨fun entry member => ?_, sorted⟩
        rcases List.mem_cons.mp member with equal | inside
        · rw [equal]; exact smaller
        · exact String.lt_trans smaller (least entry inside)
      · next notSmaller =>
        refine List.pairwise_cons.mpr ⟨fun entry member => ?_, pairwise_insertEntry name value sortedRest⟩
        rcases fst_mem_of_mem_insertEntry member with equal | old
        · rw [equal]
          exact Std.lt_of_le_of_ne (String.not_lt.mp notSmaller) fun same => different same.symm
        · exact least entry old

/-- What a frame binds, in strict order of the names. -/
structure Bindings where
  entries : List (String × Value)
  sorted : entries.Pairwise fun first second => first.1 < second.1

namespace Bindings

/-- No bindings. -/
def empty : Bindings := ⟨[], List.Pairwise.nil⟩

instance : Inhabited Bindings := ⟨empty⟩

/-- The bindings with a name bound to a value, newly or again. -/
def insert (bindings : Bindings) (name : String) (value : Value) : Bindings :=
  ⟨insertEntry name value bindings.entries, pairwise_insertEntry name value bindings.sorted⟩

/-- What a name is bound to. -/
def get? (bindings : Bindings) (name : String) : Option Value :=
  lookupEntry name bindings.entries

@[simp] theorem get?_empty (name : String) : empty.get? name = none := rfl

@[simp] theorem get?_insert (bindings : Bindings) (name other : String) (value : Value) :
    (bindings.insert name value).get? other =
      if other = name then some value else bindings.get? other :=
  lookupEntry_insertEntry name other value bindings.entries

/-- The bound names, in order. -/
def names (bindings : Bindings) : List String :=
  bindings.entries.map Prod.fst

/-- The bindings with further ones; of two for one name the later stays. -/
def insertAll (bindings : Bindings) (entries : List (String × Value)) : Bindings :=
  entries.foldl (fun bindings entry => bindings.insert entry.1 entry.2) bindings

end Bindings

/-!
### Frames and stores

Every frame's parent was made before it, so the chain of a frame has at most as many frames as its number
says, and one more. `Store.chain` walks with that bound, and all else is said of the chain.
-/

/-- A frame: what it binds, and the frame around it. -/
structure Frame where
  bindings : Bindings
  parent : Option FrameId
deriving Inhabited

/-- The frames of a run in the order in which they were made, and how many closures were made. -/
structure Store where
  frames : Array Frame
  closures : Nat
deriving Inhabited

/-- A call of `callee` needs one value for each name. -/
def checkCounts (names : List String) (values : List Value) (callee : String) : Except Fault Unit :=
  if names.length = values.length then .ok ()
  else .error (.arity callee (.exactly names.length) values.length)

namespace Store

/-- The frame of a number. -/
def frame? (store : Store) (frame : FrameId) : Option Frame :=
  store.frames[frame]?

/-- The frames from one outwards, at most so many. -/
def chainWithin (store : Store) : Nat → FrameId → List FrameId
  | 0, _ => []
  | bound + 1, frame =>
    match store.frame? frame with
    | none => []
    | some contents =>
      match contents.parent with
      | none => [frame]
      | some parent => frame :: chainWithin store bound parent

/-- A frame, its parent, and so on to the outermost frame. -/
def chain (store : Store) (frame : FrameId) : List FrameId :=
  store.chainWithin (frame + 1) frame

/-- What a frame itself binds a name to. -/
def local? (store : Store) (frame : FrameId) (name : String) : Option Value :=
  (store.frame? frame).bind fun contents => contents.bindings.get? name

/-- Whether a frame itself binds a name. -/
def bindsLocally (store : Store) (frame : FrameId) (name : String) : Bool :=
  (store.local? frame name).isSome

/-- What the nearest binding of a name along the chain of a frame says. -/
def lookup? (store : Store) (frame : FrameId) (name : String) : Option Value :=
  (store.chain frame).findSome? fun link => store.local? link name

/-- The nearest frame of a chain that binds a name. -/
def nearest? (store : Store) (frame : FrameId) (name : String) : Option FrameId :=
  (store.chain frame).find? fun link => store.bindsLocally link name

/-- The store with a name bound in a frame, newly or again; no other frame is looked at. -/
def define (store : Store) (frame : FrameId) (name : String) (value : Value) : Store :=
  { store with
    frames := store.frames.modify frame fun contents =>
      { contents with bindings := contents.bindings.insert name value } }

/-- A definition changes one frame, and in it only the bindings. -/
theorem frame?_define (store : Store) (frame other : FrameId) (name : String) (value : Value) :
    (store.define frame name value).frame? other =
      (store.frame? other).map fun contents =>
        if frame = other then { contents with bindings := contents.bindings.insert name value }
        else contents := by
  unfold define frame?
  rw [Array.getElem?_modify]
  by_cases same : frame = other <;> simp [same]

/-- A definition leaves every chain as it is. -/
theorem chainWithin_define (store : Store) (frame : FrameId) (name : String) (value : Value) :
    ∀ (bound : Nat) (start : FrameId),
      (store.define frame name value).chainWithin bound start = store.chainWithin bound start
  | 0, _ => rfl
  | bound + 1, start => by
    have inner := chainWithin_define store frame name value bound
    unfold chainWithin
    rw [frame?_define]
    cases store.frame? start with
    | none => rfl
    | some contents =>
      by_cases same : frame = start
      · simp only [Option.map_some, same, if_true]
        subst same
        cases contents.parent with
        | none => rfl
        | some parent => simp only [inner]
      · simp only [Option.map_some, same, if_false, inner]

@[simp] theorem chain_define (store : Store) (frame other : FrameId) (name : String) (value : Value) :
    (store.define frame name value).chain other = store.chain other :=
  chainWithin_define store frame name value (other + 1) other

/-- The store with the nearest binding of a name changed, if there is one. -/
def assign? (store : Store) (frame : FrameId) (name : String) (value : Value) : Option Store :=
  (store.nearest? frame name).map fun link => store.define link name value

/-- A new frame inside another one, and its number. -/
def push (store : Store) (parent : FrameId) (bindings : Bindings) : FrameId × Store :=
  (store.frames.size, { store with frames := store.frames.push ⟨bindings, some parent⟩ })

/-- The frame of a call that binds names to values one by one. -/
def enter (store : Store) (parent : FrameId) (names : List String) (values : List Value) :
    FrameId × Store :=
  store.push parent (Bindings.empty.insertAll (names.zip values))

/-- A new frame that binds names to values one by one, for a call of `callee`. The counts must agree; a
    name that occurs twice keeps its last value. -/
def extend (store : Store) (parent : FrameId) (names : List String) (values : List Value)
    (callee : String) : Except Fault (FrameId × Store) := do
  checkCounts names values callee
  pure (store.enter parent names values)

/-- The outermost frame of a chain. -/
def global (store : Store) (frame : FrameId) : FrameId :=
  (store.chain frame).getLastD frame

/-- How many frames a chain has. -/
def depth (store : Store) (frame : FrameId) : Nat :=
  (store.chain frame).length

/-- The frame around a frame. -/
def parent? (store : Store) (frame : FrameId) : Option FrameId :=
  (store.frame? frame).bind Frame.parent

/-- The bindings of a frame as they are now. -/
def snapshot (store : Store) (frame : FrameId) : Bindings :=
  ((store.frame? frame).map Frame.bindings).getD .empty

/-- The names that a frame itself binds, in order. -/
def names (store : Store) (frame : FrameId) : List String :=
  (store.snapshot frame).names

/-- The store with every primitive bound to its name in a frame, whatever was bound there. -/
def installPrimitives (store : Store) (frame : FrameId) : Store :=
  Primitive.all.foldl (fun store primitive => store.define frame primitive.name (.primitive primitive)) store

/-- The store with the primitives whose names are missing bound in the outermost frame of a chain. -/
def ensurePrimitives (store : Store) (frame : FrameId) : Store :=
  let outermost := store.global frame
  Primitive.all.foldl
    (fun store primitive =>
      if store.bindsLocally outermost primitive.name then store
      else store.define outermost primitive.name (.primitive primitive))
    store

/-- The global frame of the stores below: the first frame made. -/
def globalFrame : FrameId := 0

/-- One frame that binds nothing. -/
def bare : Store := ⟨#[⟨.empty, none⟩], 0⟩

/-- One frame that binds the primitives. -/
def fresh : Store := bare.installPrimitives globalFrame

/-- One frame that binds the primitives and then the given names, which may be names of primitives. -/
def withBindings (entries : List (String × Value)) : Store :=
  entries.foldl (fun store entry => store.define globalFrame entry.1 entry.2) fresh

end Store

end LexLisp
