/-
Module: LexLisp.Proofs.UserBindings
Purpose: What the interactive loop shows as the bindings of its user. It hides a primitive under its own name, and so
  shows exactly where the global frame differs from that of a new loop: a new global frame binds the name of every
  primitive to it and nothing else, and no name is ever unbound. This holds after all inputs and resets, whatever
  became of them.
Main exports: Bindings.mem_entries_iff, Bindings.ext_get?, Store.local?_fresh_iff, Repl.Reached, Repl.ShowsDifference,
  user_bindings_exact
-/
import LexLisp.Proofs.Conversation
import LexLisp.Proofs.Endowment
import LexLisp.Proofs.Equality
import Mathlib.Data.List.Sort

namespace LexLisp

/-!
### Bindings in order
-/

namespace Bindings

/-- Entries in strict order of their names say what the names are bound to. -/
theorem mem_iff_lookupEntry {name : String} {value : Value} : ∀ {entries : List (String × Value)},
    entries.Pairwise (fun first second => first.1 < second.1) →
      ((name, value) ∈ entries ↔ lookupEntry name entries = some value)
  | [], _ => by simp [lookupEntry]
  | (other, bound) :: rest, sorted => by
      obtain ⟨least, sortedRest⟩ := List.pairwise_cons.mp sorted
      rw [List.mem_cons, lookupEntry]
      split
      · next same =>
          subst same
          have absent : (name, value) ∉ rest := fun member => String.lt_irrefl name (least _ member)
          simp [absent, eq_comm]
      · next different => simp [different, mem_iff_lookupEntry sortedRest]

theorem mem_entries_iff (bindings : Bindings) {name : String} {value : Value} :
    (name, value) ∈ bindings.entries ↔ bindings.get? name = some value :=
  mem_iff_lookupEntry bindings.sorted

/-- Bindings are determined by what the names are bound to. -/
theorem ext_get? {first second : Bindings} (same : ∀ name, first.get? name = second.get? name) : first = second := by
  have entries : first.entries = second.entries := by
    have : Std.Irrefl fun first second : String × Value => first.1 < second.1 := ⟨fun _ => String.lt_irrefl _⟩
    have : Std.Antisymm fun first second : String × Value => first.1 < second.1 :=
      ⟨fun _ _ less more => absurd (String.lt_trans less more) (String.lt_irrefl _)⟩
    apply first.sorted.eq_of_mem_iff second.sorted
    rintro ⟨name, value⟩
    rw [mem_entries_iff, mem_entries_iff, same]
  cases first
  cases second
  cases entries
  rfl

end Bindings

/-!
### A new global frame
-/

theorem Primitive.name_injective {first second : Primitive} (same : first.name = second.name) : first = second := by
  revert same
  cases first <;> cases second <;> decide

theorem Repl.isBuiltin_iff {name : String} {value : Value} :
    isBuiltin name value = true ↔ ∃ primitive : Primitive, primitive.name = name ∧ value = .primitive primitive := by
  cases value <;> simp [isBuiltin]

namespace Store

theorem mem_snapshot_iff (store : Store) (frame : FrameId) {name : String} {value : Value} :
    (name, value) ∈ (store.snapshot frame).entries ↔ store.local? frame name = some value := by
  rw [Bindings.mem_entries_iff, snapshot, local?]
  cases store.frame? frame <;> rfl

theorem fresh_eq_defineAll : fresh = bare.defineAll globalFrame primitiveEntries := by
  simp only [fresh, installPrimitives, defineAll, primitiveEntries, List.foldl_map]

/-- What a frame binds after definitions in it was defined or there before. -/
theorem local?_defineAll {frame : FrameId} {name : String} {value : Value} :
    ∀ (entries : List (String × Value)) {store : Store}, frame < store.size →
      (store.defineAll frame entries).local? frame name = some value →
        (name, value) ∈ entries ∨ store.local? frame name = some value
  | [], _, _, found => .inr found
  | (other, bound) :: entries, store, made, found => by
      have stillMade : frame < (store.define frame other bound).size := by simpa using made
      rcases local?_defineAll entries stillMade found with listed | before
      · exact .inl (List.mem_cons_of_mem _ listed)
      · rw [local?_define made] at before
        split at before
        · next same =>
            cases before
            rw [same.2]
            exact .inl List.mem_cons_self
        · exact .inr before

/-- The new global frame binds the name of each primitive to it, and nothing else. -/
theorem local?_fresh_iff {name : String} {value : Value} :
    fresh.local? globalFrame name = some value ↔ Repl.isBuiltin name value = true := by
  have made : globalFrame < bare.size := by decide
  have onlyBuiltin : ∀ {value : Value}, fresh.local? globalFrame name = some value →
      Repl.isBuiltin name value = true := by
    intro value found
    rw [fresh_eq_defineAll] at found
    rcases local?_defineAll _ made found with listed | before
    · obtain ⟨primitive, _, same⟩ := List.mem_map.mp listed
      cases same
      exact Repl.isBuiltin_iff.mpr ⟨primitive, rfl, rfl⟩
    · cases before
  refine ⟨onlyBuiltin, fun builtin => ?_⟩
  obtain ⟨primitive, rfl, rfl⟩ := Repl.isBuiltin_iff.mp builtin
  have binds : fresh.bindsLocally globalFrame primitive.name = true := by
    rw [fresh_eq_defineAll]
    exact bindsLocally_defineAll _ made (mem_primitiveEntries primitive)
  obtain ⟨bound, found⟩ := Option.isSome_iff_exists.mp binds
  obtain ⟨other, sameName, rfl⟩ := Repl.isBuiltin_iff.mp (onlyBuiltin found)
  rw [found, Primitive.name_injective sameName]

/-- A frame that binds every name of the new global frame and, besides, only primitives under their own names binds
    just what the new global frame does. -/
theorem local?_eq_fresh {store : Store} (grown : fresh.Extends store)
    (builtin : ∀ name value, store.local? globalFrame name = some value → Repl.isBuiltin name value = true)
    (name : String) : store.local? globalFrame name = fresh.local? globalFrame name := by
  cases found : store.local? globalFrame name with
  | some value => exact (local?_fresh_iff.mpr (builtin name value found)).symm
  | none =>
      cases given : fresh.local? globalFrame name with
      | none => rfl
      | some value =>
          have kept := grown.keeps_names globalFrame name (by rw [bindsLocally, given]; rfl)
          rw [bindsLocally, found] at kept
          cases kept

/-- A frame is determined by what it binds and by the frame around it. -/
theorem frame?_eq_of_local? {store other : Store} {frame : FrameId} (made : frame < store.size)
    (madeThere : frame < other.size) (parent : store.parent? frame = other.parent? frame)
    (same : ∀ name, store.local? frame name = other.local? frame name) : store.frame? frame = other.frame? frame := by
  obtain ⟨⟨bindings, outer⟩, found⟩ := exists_frame? made
  obtain ⟨⟨bindings', outer'⟩, found'⟩ := exists_frame? madeThere
  rw [parent?_of_frame? found, parent?_of_frame? found'] at parent
  have sameBindings : bindings = bindings' := by
    apply Bindings.ext_get?
    intro name
    have here := same name
    rwa [local?_of_frame? found, local?_of_frame? found'] at here
  rw [found, found', sameBindings, show outer = outer' from parent]

end Store

/-!
### Runs of the loop
-/

/-- A program leaves the global frame of a session with all its names. -/
theorem Session.execute_sound {session : Session} (wellFormed : session.store.WellFormed)
    (made : Store.globalFrame < session.store.size) (fuel : Nat) (source text : String) :
    (session.execute fuel source text).2.store.WellFormed ∧
      session.store.Extends (session.execute fuel source text).2.store := by
  let client : Client := ⟨session.machine, [Store.globalFrame], []⟩
  have grounded : client.Grounded :=
    ⟨wellFormed, List.forall_mem_singleton.mpr made, fun _ member => nomatch member⟩
  have same : (session.execute fuel source text).2.machine =
      (client.finish (runText fuel source text Store.globalFrame client.machine)).machine := by
    show (session.perform _).2.machine = _
    rw [Session.perform]
    cases runText fuel source text Store.globalFrame session.machine <;> rfl
  obtain ⟨sound, grown⟩ := grounded.keeps_run fuel source text made
  rw [Session.store, same]
  exact ⟨sound.wellFormed, grown⟩

namespace Repl

/-- What the loop can come to: inputs, which may fail, and resets. The lines held back may be any. -/
inductive Reached : Repl → Prop where
  | fresh : Reached .fresh
  | input {repl : Repl} (reached : Reached repl) (fuel : Nat) (text : String) :
      Reached (repl.evaluateInput fuel text).2
  | reset {repl : Repl} (reached : Reached repl) : Reached { repl with session := repl.session.reset }
  | hold {repl : Repl} (reached : Reached repl) (buffer : String) : Reached { repl with buffer := buffer }

namespace Reached

variable {repl : Repl}

/-- A line brings the loop to no other states. -/
theorem turn (reached : repl.Reached) (fuel : Nat) (line : String) :
    (Exchange.turn ⟨repl, line⟩ fuel).repl.Reached := by
  rw [Exchange.turn, advance]
  cases classify repl.buffer line with
  | command text =>
      show (repl.obey (.ofText text)).repl.Reached
      cases ReplCommand.ofText text with
      | reset => exact reached.reset
      | help | quit | bindings | unknown => exact reached
  | hold buffer => exact reached.hold buffer
  | submit input =>
      have next := (reached.hold "").input fuel input
      simp only
      cases (({ repl with buffer := "" } : Repl).evaluateInput fuel input).1 <;> exact next

/-- At every prompt, and at the end of the lines. -/
theorem run (reached : repl.Reached) (fuel : Nat) (lines : List (Option String)) :
    (∀ exchange ∈ repl.exchanges fuel lines, exchange.repl.Reached) ∧ (repl.final fuel lines).Reached := by
  induction repl, lines using Repl.exchanges.induct fuel with
  | case1 repl => exact ⟨List.forall_mem_nil _, reached⟩
  | case2 repl => exact ⟨List.forall_mem_nil _, reached⟩
  | case3 repl line lines finished =>
      rw [exchanges_finished finished, final_finished finished]
      exact ⟨List.forall_mem_singleton.mpr reached, reached.turn fuel line⟩
  | case4 repl line lines continued inductionHypothesis =>
      have later := inductionHypothesis (reached.turn fuel line)
      rw [exchanges_continued continued, final_continued continued, List.forall_mem_cons]
      exact ⟨⟨reached, later.1⟩, later.2⟩

/-- The global frame has all names that it had in the beginning. -/
theorem grown (reached : repl.Reached) :
    repl.session.store.WellFormed ∧ Store.fresh.Extends repl.session.store := by
  induction reached with
  | fresh | reset => exact ⟨Store.wellFormed_fresh, .refl _⟩
  | @input repl _ fuel text inductionHypothesis =>
      obtain ⟨wellFormed, early⟩ := inductionHypothesis
      have made : Store.globalFrame < repl.session.store.size :=
        Nat.lt_of_lt_of_le (by decide) early.size_le
      obtain ⟨wellFormedLater, late⟩ :=
        Session.execute_sound wellFormed made fuel (sourceName (repl.inputs + 1)) text
      exact ⟨wellFormedLater, early.trans late⟩
  | hold _ _ inductionHypothesis => exact inductionHypothesis

end Reached

/-!
### What is shown
-/

theorem mem_userBindings_iff {repl : Repl} {name : String} {value : Value} :
    (name, value) ∈ repl.userBindings ↔
      repl.session.store.local? Store.globalFrame name = some value ∧ isBuiltin name value = false := by
  rw [userBindings, List.mem_filter, Store.mem_snapshot_iff, Bool.not_eq_true']

/-- What is hidden is what a new loop binds the name to. -/
theorem isBuiltin_eq_false_iff {name : String} {value : Value} :
    isBuiltin name value = false ↔
      ¬ ∃ given, Store.fresh.local? Store.globalFrame name = some given ∧ (given == value) = true := by
  rw [← Bool.not_eq_true, not_iff_not]
  constructor
  · intro builtin
    obtain ⟨primitive, _, rfl⟩ := isBuiltin_iff.mp builtin
    exact ⟨_, Store.local?_fresh_iff.mpr builtin, Value.same_iff.mpr (.primitive primitive)⟩
  · rintro ⟨given, found, equal⟩
    have builtin := Store.local?_fresh_iff.mp found
    obtain ⟨primitive, _, rfl⟩ := isBuiltin_iff.mp builtin
    -- only the primitive itself equals it
    cases Value.same_iff.mp equal
    exact builtin

/-- The loop shows exactly what differs from a new one. -/
structure ShowsDifference (repl : Repl) : Prop where
  /-- The names come in strict order, and so each of them once. -/
  ordered : repl.userBindings.Pairwise fun first second => first.1 < second.1
  /-- A name is shown with a value if the global frame binds it to the value and a new global frame does not bind it
      to an equal one. -/
  exactly : ∀ name value, (name, value) ∈ repl.userBindings ↔
    repl.session.store.local? Store.globalFrame name = some value ∧
      ¬ ∃ given, Store.fresh.local? Store.globalFrame name = some given ∧ (given == value) = true
  /-- Nothing is shown if the global frame is as a new one. -/
  nothing : repl.userBindings = [] ↔
    repl.session.store.frame? Store.globalFrame = Store.fresh.frame? Store.globalFrame

theorem Reached.userBindings_eq_nil_iff {repl : Repl} (reached : repl.Reached) :
    repl.userBindings = [] ↔
      repl.session.store.frame? Store.globalFrame = Store.fresh.frame? Store.globalFrame := by
  obtain ⟨_, grown⟩ := reached.grown
  have madeFirst : Store.globalFrame < Store.fresh.size := by decide
  constructor
  · intro nothing
    have builtin : ∀ name value, repl.session.store.local? Store.globalFrame name = some value →
        isBuiltin name value = true := by
      intro name value found
      by_contra shown
      have member := mem_userBindings_iff.mpr ⟨found, Bool.not_eq_true _ ▸ shown⟩
      rw [nothing] at member
      cases member
    exact Store.frame?_eq_of_local? (Nat.lt_of_lt_of_le madeFirst grown.size_le) madeFirst
      (grown.parent?_eq _ madeFirst) (Store.local?_eq_fresh grown builtin)
  · intro same
    rw [List.eq_nil_iff_forall_not_mem]
    rintro ⟨name, value⟩ member
    obtain ⟨found, shown⟩ := mem_userBindings_iff.mp member
    rw [Store.local?_congr same, Store.local?_fresh_iff, shown] at found
    cases found

end Repl

/-- After any inputs, with success or without, and any resets, the loop shows its user exactly what differs from a new
    loop. So it does at every prompt of a conversation, and at its end. -/
theorem user_bindings_exact :
    (∀ repl : Repl, repl.Reached → repl.ShowsDifference) ∧
    ∀ (fuel : Nat) (lines : List (Option String)),
      (∀ exchange ∈ Repl.fresh.exchanges fuel lines, exchange.repl.Reached) ∧
        (Repl.fresh.final fuel lines).Reached := by
  refine ⟨fun repl reached => ⟨?_, fun name value => ?_, reached.userBindings_eq_nil_iff⟩, Repl.Reached.fresh.run⟩
  · exact (repl.session.store.snapshot Store.globalFrame).sorted.filter _
  · rw [Repl.mem_userBindings_iff, Repl.isBuiltin_eq_false_iff]

/-- An input that fails leaves another value under the name of `+`, and this alone is shown. One that changes the name
    and restores it, through the parameter of a procedure, leaves nothing to show. -/
theorem user_bindings_exact_restored :
    let changed := (Repl.fresh.evaluateInput 9 "(set! + -) (car 1)").2
    let restored := (Repl.fresh.evaluateInput 9 "((lambda (old) (begin (set! + -) (set! + old))) +)").2
    changed.userBindings.map Prod.fst = ["+"] ∧
      (∃ value, changed.session.store.local? Store.globalFrame "+" = some value ∧
        ¬ ∃ given, Store.fresh.local? Store.globalFrame "+" = some given ∧ (given == value) = true) ∧
      restored.session.store.frame? Store.globalFrame = Store.fresh.frame? Store.globalFrame := by
  have shown : (Repl.fresh.evaluateInput 9 "(set! + -) (car 1)").2.userBindings.map Prod.fst = ["+"] := by
    decide +kernel
  have hidden : (Repl.fresh.evaluateInput 9
      "((lambda (old) (begin (set! + -) (set! + old))) +)").2.userBindings.map Prod.fst = [] := by
    decide +kernel
  have named : "+" ∈ (Repl.fresh.evaluateInput 9 "(set! + -) (car 1)").2.userBindings.map Prod.fst := by
    rw [shown]
    exact List.mem_singleton_self _
  obtain ⟨⟨name, value⟩, member, rfl⟩ := List.mem_map.mp named
  exact ⟨shown, ⟨value, ((user_bindings_exact.1 _ (.input .fresh 9 _)).exactly _ value).mp member⟩,
    (user_bindings_exact.1 _ (.input .fresh 9 _)).nothing.mp (List.map_eq_nil_iff.mp hidden)⟩

end LexLisp
