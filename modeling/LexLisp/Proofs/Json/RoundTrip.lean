/-
Module: LexLisp.Proofs.Json.RoundTrip
Purpose: A tree is read back from its JSON text. The text has no marks for numbers, symbols and lists, but its
  first character tells them apart: a quote, a bracket, or else a sign or digit. So every tree that does not
  nest too deeply, and whose numbers are read back one by one, is read back as it was, and evaluating the text
  is evaluating the tree.
Main exports: Json.ReadsBack, Json.readTree_toJson, Expr.ofJson?_toJson, executeJson_toJson
-/
import LexLisp.Proofs.Anatomy
import LexLisp.Proofs.Json.Scanning
import LexLisp.Proofs.Surface.Printing
import LexLisp.Session

namespace LexLisp

namespace Json

/-- A number is read back from its own text, to the last bit. Infinity and what is not a number have no text
    that is a number. -/
def ReadsBack (value : Float) : Prop :=
  ∃ written, readNumber (numberStyle.write value).toList = some (written, []) ∧
    written.value? = some value

/-!
### Reading one tree
-/

theorem skipBlanks_cons {c : Char} (shown : isBlank c = false) (rest : List Char) :
    skipBlanks (c :: rest) = c :: rest := by
  simp [skipBlanks, shown]

/-- What a number starts with is no blank, and starts nothing else. -/
theorem isBlank_of_number {c : Char} (starts : c = '-' ∨ c.isDigit = true) :
    isBlank c = false ∧ c ≠ '"' ∧ c ≠ '[' ∧ c ≠ ']' := by
  have apart : ∀ other : Char, other.isDigit = false → other ≠ '-' → c ≠ other := by
    rintro other noDigit noMinus rfl
    rcases starts with rfl | digit
    · exact noMinus rfl
    · rw [noDigit] at digit
      cases digit
  have blank : isBlank c = false := by
    simp [isBlank, apart ' ' rfl (by decide), apart '\n' rfl (by decide), apart '\t' rfl (by decide),
      apart '\r' rfl (by decide)]
  exact ⟨blank, apart '"' rfl (by decide), apart '[' rfl (by decide), apart ']' rfl (by decide)⟩

theorem readTree_symbol (fuel depth : Nat) (name : String) (rest : List Char) :
    readTree (fuel + 1) depth ((quoted name).toList ++ rest) = some (.symbol name, rest) := by
  have text : (quoted name).toList ++ rest = '"' :: (name.toList.flatMap escape ++ '"' :: rest) := by
    simp [quoted]
  rw [text, readTree, skipBlanks_cons (by decide)]
  simp [readString_flatMap_escape]

theorem readTree_number {value : Float} (known : ReadsBack value) (fuel depth : Nat) {rest : List Char}
    (ends : Ends rest) :
    readTree (fuel + 1) depth ((numberStyle.write value).toList ++ rest) = some (.number value, rest) := by
  obtain ⟨written, reads, isValue⟩ := known
  obtain ⟨c, after, same, starts⟩ := exists_cons_of_readNumber reads
  obtain ⟨shown, noQuote, noBracket, _⟩ := isBlank_of_number starts
  have longer := readNumber_append ends reads
  rw [same, List.cons_append] at longer ⊢
  rw [readTree, skipBlanks_cons shown]
  split
  · next same => exact absurd (List.cons.inj same).1 noQuote
  · next same => exact absurd (List.cons.inj same).1 noBracket
  · simp [longer, isValue]

theorem toList_toJson_list (items : List Expr) (rest : List Char) :
    (Expr.list items).toJson.toList ++ rest = '[' :: ((Expr.toJsonItems items).toList ++ ']' :: rest) := by
  simp [Expr.toJson]

theorem toList_toJsonItems_cons (item next : Expr) (items : List Expr) (rest : List Char) :
    (Expr.toJsonItems (item :: next :: items)).toList ++ rest =
      item.toJson.toList ++ ',' :: ((Expr.toJsonItems (next :: items)).toList ++ rest) := by
  simp [Expr.toJsonItems]

/-- A tree starts with a character that is no blank and closes no array. -/
theorem exists_cons_toJson {tree : Expr} (known : ∀ value ∈ tree.numbers, ReadsBack value) :
    ∃ c after, tree.toJson.toList = c :: after ∧ isBlank c = false ∧ c ≠ ']' := by
  cases tree with
  | number value =>
      obtain ⟨written, reads, _⟩ := known value (by simp [Expr.numbers])
      obtain ⟨c, after, same, starts⟩ := exists_cons_of_readNumber reads
      obtain ⟨shown, _, _, noClosing⟩ := isBlank_of_number starts
      exact ⟨c, after, same, shown, noClosing⟩
  | symbol name => exact ⟨'"', _, by simp [Expr.toJson, quoted]; rfl, rfl, by decide⟩
  | list items => exact ⟨'[', _, by simp [Expr.toJson]; rfl, rfl, by decide⟩

theorem exists_cons_toJsonItems {first : Expr} (known : ∀ value ∈ first.numbers, ReadsBack value)
    (items : List Expr) (rest : List Char) :
    ∃ c after, (Expr.toJsonItems (first :: items)).toList ++ rest = c :: after ∧ isBlank c = false ∧
      c ≠ ']' := by
  obtain ⟨c, after, same, shown, noClosing⟩ := exists_cons_toJson known
  cases items with
  | nil => exact ⟨c, after ++ rest, by simp [Expr.toJsonItems, same], shown, noClosing⟩
  | cons next items =>
      rw [toList_toJsonItems_cons, same]
      exact ⟨c, _, rfl, shown, noClosing⟩

/-- A list is read by reading its elements, unless it has none. -/
theorem readTree_list {first : Expr} (known : ∀ value ∈ first.numbers, ReadsBack value)
    (items : List Expr) (fuel depth : Nat) (rest : List Char) :
    readTree (fuel + 1) (depth + 1) ((Expr.list (first :: items)).toJson.toList ++ rest) =
      (readItems fuel depth ((Expr.toJsonItems (first :: items)).toList ++ ']' :: rest)).map
        fun (items, rest) => (.list items, rest) := by
  obtain ⟨c, after, same, shown, noClosing⟩ := exists_cons_toJsonItems known items (']' :: rest)
  rw [toList_toJson_list, same, readTree, skipBlanks_cons (by decide)]
  simp only [skipBlanks_cons shown]
  split
  · next same => cases same
  · next same => exact absurd (List.cons.inj same).1 noClosing
  · next deeper _ =>
      cases deeper
      rfl

mutual

/-- A tree is read back from the front of a text, if what follows does not go on with a number. The fuel that
    is enough is twice the length of the tree's own text. -/
theorem readTree_toJson : ∀ (tree : Expr) (fuel depth : Nat) (rest : List Char),
    2 * tree.toJson.toList.length ≤ fuel → tree.height ≤ depth →
      (∀ value ∈ tree.numbers, ReadsBack value) → Ends rest →
        readTree fuel depth (tree.toJson.toList ++ rest) = some (tree, rest)
  | .number value => by
      intro fuel depth rest enough _ known ends
      have reads := known value (by simp [Expr.numbers])
      obtain ⟨c, after, same, _⟩ := exists_cons_toJson known
      rw [same, List.length_cons] at enough
      obtain ⟨fuel, rfl⟩ := Nat.exists_eq_add_one.mpr (show 0 < fuel by omega)
      exact readTree_number reads fuel depth ends
  | .symbol name => by
      intro fuel depth rest enough _ known _
      obtain ⟨c, after, same, _⟩ := exists_cons_toJson known
      rw [same, List.length_cons] at enough
      obtain ⟨fuel, rfl⟩ := Nat.exists_eq_add_one.mpr (show 0 < fuel by omega)
      exact readTree_symbol fuel depth name rest
  | .list items => by
      intro fuel depth rest enough shallow known _
      have text := toList_toJson_list items []
      rw [List.append_nil] at text
      rw [text, List.length_cons, List.length_append] at enough
      rw [Expr.height] at shallow
      obtain ⟨depth, rfl⟩ := Nat.exists_eq_add_one.mpr (show 0 < depth by omega)
      obtain ⟨fuel, rfl⟩ := Nat.exists_eq_add_one.mpr (show 0 < fuel by omega)
      cases items with
      | nil => rfl
      | cons first items =>
          rw [Expr.numbers, Expr.numbersAmong] at known
          have knownFirst : ∀ value ∈ first.numbers, ReadsBack value :=
            fun value member => known value (List.mem_append_left _ member)
          rw [readTree_list knownFirst, readItems_toJson first items _ _ _ (by omega) (by omega) known]
          rfl
  termination_by tree => sizeOf tree

/-- So are the elements of a list, up to its closing bracket. -/
theorem readItems_toJson : ∀ (first : Expr) (items : List Expr) (fuel depth : Nat) (rest : List Char),
    2 * (Expr.toJsonItems (first :: items)).toList.length + 1 ≤ fuel →
      Expr.heightAmong (first :: items) ≤ depth →
        (∀ value ∈ Expr.numbersAmong (first :: items), ReadsBack value) →
          readItems fuel depth ((Expr.toJsonItems (first :: items)).toList ++ ']' :: rest) =
            some (first :: items, rest)
  | first, [] => by
      intro fuel depth rest enough shallow known
      rw [Expr.toJsonItems] at enough
      rw [Expr.heightAmong, Nat.max_le] at shallow
      rw [Expr.numbersAmong, Expr.numbersAmong, List.append_nil] at known
      obtain ⟨fuel, rfl⟩ := Nat.exists_eq_add_one.mpr (show 0 < fuel by omega)
      have item := readTree_toJson first fuel depth _ (by omega) shallow.1
        known (ends_cons (Or.inr rfl) rest)
      rw [Expr.toJsonItems, readItems, item]
      rfl
  | first, next :: items => by
      intro fuel depth rest enough shallow known
      have text := toList_toJsonItems_cons first next items []
      rw [List.append_nil, List.append_nil] at text
      rw [text, List.length_append, List.length_cons] at enough
      rw [Expr.heightAmong, Nat.max_le] at shallow
      rw [Expr.numbersAmong, List.forall_mem_append] at known
      obtain ⟨fuel, rfl⟩ := Nat.exists_eq_add_one.mpr (show 0 < fuel by omega)
      have item := readTree_toJson first fuel depth _ (by omega) shallow.1
        known.1 (ends_cons (Or.inl rfl) ((Expr.toJsonItems (next :: items)).toList ++ ']' :: rest))
      have others : readItems fuel depth ((Expr.toJsonItems (next :: items)).toList ++ ']' :: rest) =
          some (next :: items, rest) :=
        readItems_toJson next items fuel depth rest (by omega) shallow.2 known.2
      rw [toList_toJsonItems_cons, readItems, item]
      simp only [Option.bind_eq_bind, Option.bind_some, skipBlanks_cons (show isBlank ',' = false from rfl),
        others]
  termination_by first items => sizeOf (first :: items)

end

end Json

/-- A tree is read back from its text. -/
theorem Expr.ofJson?_toJson {tree : Expr} (shallow : tree.height ≤ Json.nestingLimit)
    (known : ∀ value ∈ tree.numbers, Json.ReadsBack value) : Expr.ofJson? tree.toJson = some tree := by
  have reads := Json.readTree_toJson tree (2 * tree.toJson.toList.length + 2) Json.nestingLimit []
    (Nat.le_add_right _ 2) shallow known Json.ends_nil
  rw [List.append_nil] at reads
  simp [Expr.ofJson?, reads, Json.skipBlanks]

/-- The text of a tree stands for the tree: it is read as that tree, number for number and symbol for symbol, and
    to run it is to evaluate the tree, with the same value or failure and the same machine left behind. The
    symbols may be any text. A number that is read back is finite, since the others are written as `null`. -/
theorem executeJson_toJson {tree : Expr} (shallow : tree.height ≤ 127)
    (known : ∀ value ∈ tree.numbers, Json.ReadsBack value) :
    Expr.ofJson? tree.toJson = some tree ∧
      ∀ (session : Session) (fuel : Nat) (source : String),
        session.executeJson fuel source tree.toJson =
          match evaluate fuel tree Store.globalFrame session.machine with
          | .ok value machine => (.ok value, ⟨machine⟩)
          | .error stop machine => (.error (.ofStop stop), ⟨machine⟩) := by
  have reads := Expr.ofJson?_toJson shallow known
  refine ⟨reads, fun session fuel source => ?_⟩
  have run : runJson fuel source tree.toJson Store.globalFrame = runTree fuel tree Store.globalFrame := by
    rw [runJson, reads]
  rw [Session.executeJson, run, Session.perform, runTree, Run.ofEval, EStateM.adaptExcept]
  cases evaluate fuel tree Store.globalFrame session.machine <;> rfl

/-- The symbols of this tree look like a boolean, like a number, like the end of a list and like nothing at all;
    one of them holds a quote, a backslash, a line end and a letter beyond the ASCII ones. -/
theorem executeJson_toJson_disguised :
    let tree : Expr := .list [.symbol "#t", .symbol "1.5", .symbol "]", .symbol "", .symbol "\"\\\né\x07",
      .list [.number 1.5, .list []]]
    tree.height ≤ 127 ∧ (∀ value ∈ tree.numbers, Json.ReadsBack value) ∧
      tree.toJson = "[\"#t\",\"1.5\",\"]\",\"\",\"\\\"\\\\\\né\\u0007\",[1.5,[]]]" ∧
        Expr.ofJson? tree.toJson = some tree := by
  intro tree
  have shallow : tree.height ≤ 127 := by decide
  have known : ∀ value ∈ tree.numbers, Json.ReadsBack value := by
    intro value member
    obtain rfl : value = 1.5 := List.mem_singleton.mp member
    exact ⟨⟨false, ['1'], ['5'], false, []⟩, by decide +kernel, by decide +kernel⟩
  exact ⟨shallow, known, by decide +kernel, (executeJson_toJson shallow known).1⟩

end LexLisp
