/-
Module: LexLisp.Proofs.Accounts
Purpose: Procedures with a state of their own. Every account that one constructor makes is a procedure inside a frame
  of its own, which holds the balance. A deposit assigns in that frame and in no other, so accounts do not disturb
  one another, in whatever order the deposits come.
Main exports: makeAccount, opening, deposit, AccountName, Ledger, Deposited, accounts_independent
-/
import LexLisp.Proofs.Execution
import LexLisp.Proofs.WellFormed
import Mathlib

namespace LexLisp

/-!
### The program
-/

/-- The body of an account: `(begin (set! balance (+ balance amount)) balance)`. -/
def depositBody : Expr :=
  .list [.symbol "begin",
    .list [.symbol "set!", .symbol "balance", .list [.symbol "+", .symbol "balance", .symbol "amount"]],
    .symbol "balance"]

/-- The body of the constructor: `(lambda-one amount ...)`. -/
def accountBody : Expr :=
  .list [.symbol "lambda-one", .symbol "amount", depositBody]

/-- The definition of the constructor: `(define make-account (lambda (balance) ...))`. -/
def makeAccount : Expr :=
  .list [.symbol "define", .symbol "make-account", .list [.symbol "lambda", .list [.symbol "balance"], accountBody]]

/-- The definition of an account: `(define name (make-account initial))`. -/
def opening (name : String) (initial : Float) : Expr :=
  .list [.symbol "define", .symbol name, .list [.symbol "make-account", .number initial]]

/-- A call of an account: `(name amount)`. -/
def deposit (name : String) (amount : Float) : Expr :=
  .list [.symbol name, .number amount]

/-- A name that an account may go by. -/
structure AccountName (name : String) : Prop where
  notMaker : name ≠ "make-account"
  notPrimitive : Primitive.ofName? name = none
  notTag : truth? name = none
  notKeyword : Keyword.ofName? name = none

theorem AccountName.ne_add {name : String} (free : AccountName name) : name ≠ "+" := by
  rintro rfl
  exact absurd free.notPrimitive (by decide)

/-!
### The ledger
-/

/-- What a frame binds that binds one name. -/
def Bindings.single (name : String) (value : Value) : Bindings :=
  Bindings.empty.insert name value

theorem Bindings.insert_single (name : String) (value other : Value) :
    (Bindings.single name value).insert name other = Bindings.single name other := by
  simp [Bindings.single, Bindings.insert, Bindings.empty, insertEntry]

/-- A store in which accounts are kept: the global frame binds what an account needs and the accounts, and each
    account has a frame of its own, which holds its balance. -/
structure Ledger (store : Store) (names : List String) (home : String → FrameId) (balance : String → Float) :
    Prop where
  ordered : store.ParentsEarlier
  made : Store.globalFrame < store.size
  outermost : store.parent? Store.globalFrame = none
  adds : store.local? Store.globalFrame "+" = some (.primitive .add)
  makes : ∃ identity, store.local? Store.globalFrame "make-account" =
    some (.closure ⟨identity, ["balance"], accountBody, Store.globalFrame⟩)
  accounts : ∀ name ∈ names, ∃ identity, store.local? Store.globalFrame name =
    some (.closure ⟨identity, ["amount"], depositBody, home name⟩)
  frames : ∀ name ∈ names, store.frame? (home name) =
    some ⟨.single "balance" (.number (balance name)), some Store.globalFrame⟩
  apart : ∀ name ∈ names, ∀ other ∈ names, home name = home other → name = other

/-- What a deposit does to the frames: the account's frame has the new balance, the call has made a frame for the
    amount, and no other frame is touched. -/
structure Deposited (before after : Store) (home : FrameId) (amount balance : Float) : Prop where
  size : after.size = before.size + 1
  call : after.frame? before.size = some ⟨.single "amount" (.number amount), some home⟩
  account : after.frame? home = some ⟨.single "balance" (.number balance), some Store.globalFrame⟩
  others : ∀ frame, frame < before.size → frame ≠ home → after.frame? frame = before.frame? frame

namespace Ledger

variable {store : Store} {names : List String} {home : String → FrameId} {balance : String → Float} {name : String}

theorem restrict (ledger : Ledger store names home balance) {fewer : List String} (subset : fewer ⊆ names) :
    Ledger store fewer home balance where
  ordered := ledger.ordered
  made := ledger.made
  outermost := ledger.outermost
  adds := ledger.adds
  makes := ledger.makes
  accounts name member := ledger.accounts name (subset member)
  frames name member := ledger.frames name (subset member)
  apart first firstMember second secondMember :=
    ledger.apart first (subset firstMember) second (subset secondMember)

theorem chain_globalFrame (ledger : Ledger store names home balance) :
    store.chain Store.globalFrame = [Store.globalFrame] :=
  Store.chain_of_root ledger.made ledger.outermost

/-- What the global frame binds is found from there. -/
theorem lookup?_globalFrame (ledger : Ledger store names home balance) (name : String) :
    store.lookup? Store.globalFrame name = store.local? Store.globalFrame name := by
  rw [Store.lookup?, ledger.chain_globalFrame, List.findSome?_singleton]

theorem home_lt (ledger : Ledger store names home balance) (member : name ∈ names) : home name < store.size :=
  Store.lt_size_of_frame? (ledger.frames name member)

theorem parent?_home (ledger : Ledger store names home balance) (member : name ∈ names) :
    store.parent? (home name) = some Store.globalFrame :=
  Store.parent?_of_frame? (ledger.frames name member)

theorem home_ne_globalFrame (ledger : Ledger store names home balance) (member : name ∈ names) :
    home name ≠ Store.globalFrame := by
  intro same
  have link := ledger.parent?_home member
  rw [same, ledger.outermost] at link
  cases link

theorem chain_home (ledger : Ledger store names home balance) (member : name ∈ names) :
    store.chain (home name) = [home name, Store.globalFrame] := by
  rw [Store.chain_of_parent ledger.ordered (ledger.parent?_home member), ledger.chain_globalFrame]

/-!
The frame of a deposit lies inside the account's frame, and that one inside the global frame.
-/

theorem chain_call (ledger : Ledger store names home balance) (member : name ∈ names) (amount : Value) :
    (store.enter (home name) ["amount"] [amount]).2.chain store.size =
      [store.size, home name, Store.globalFrame] := by
  rw [Store.chain_enter ledger.ordered (ledger.home_lt member), ledger.chain_home member]

theorem local?_call (amount : Value) (frame : FrameId) (wanted : String) :
    (store.enter frame ["amount"] [amount]).2.local? store.size wanted =
      if wanted = "amount" then some amount else none := by
  have found := Store.frame?_enter store frame ["amount"] [amount] store.size
  rw [if_pos rfl] at found
  rw [Store.local?_of_frame? found]
  exact Bindings.get?_insert _ _ _ _

theorem local?_call_home (ledger : Ledger store names home balance) (member : name ∈ names) (amount : Value)
    (wanted : String) :
    (store.enter (home name) ["amount"] [amount]).2.local? (home name) wanted =
      if wanted = "balance" then some (.number (balance name)) else none := by
  rw [Store.local?_congr (Store.frame?_enter_of_lt (ledger.home_lt member) _ _ _),
    Store.local?_of_frame? (ledger.frames name member)]
  exact Bindings.get?_insert _ _ _ _

/-- A deposit sees the amount in its own frame, the balance in the account's frame, and all else in the global
    frame. -/
theorem lookup?_call (ledger : Ledger store names home balance) (member : name ∈ names) (amount : Value)
    (wanted : String) :
    (store.enter (home name) ["amount"] [amount]).2.lookup? store.size wanted =
      if wanted = "amount" then some amount
      else if wanted = "balance" then some (.number (balance name))
      else store.local? Store.globalFrame wanted := by
  have outer := Store.local?_congr (Store.frame?_enter_of_lt ledger.made (home name) ["amount"] [amount]) wanted
  rw [Store.lookup?, ledger.chain_call member]
  simp only [List.findSome?_cons, local?_call, ledger.local?_call_home member, outer]
  grind

/-- A deposit assigns in the account's frame. -/
theorem nearest?_call (ledger : Ledger store names home balance) (member : name ∈ names) (amount : Value) :
    (store.enter (home name) ["amount"] [amount]).2.nearest? store.size "balance" = some (home name) := by
  rw [Store.nearest?, ledger.chain_call member]
  simp [Store.bindsLocally, local?_call, ledger.local?_call_home member]

/-- After the assignment the deposit sees the new balance. -/
theorem lookup?_assigned (ledger : Ledger store names home balance) (member : name ∈ names) (amount value : Value) :
    ((store.enter (home name) ["amount"] [amount]).2.define (home name) "balance" value).lookup? store.size
      "balance" = some value := by
  have inside : home name < (store.enter (home name) ["amount"] [amount]).2.size := by
    rw [Store.size_enter]
    exact Nat.lt_succ_of_lt (ledger.home_lt member)
  have apart : store.size ≠ home name := Nat.ne_of_gt (ledger.home_lt member)
  rw [Store.lookup?, Store.chain_define, ledger.chain_call member]
  simp [Store.local?_define inside, local?_call, apart]

/-- In the frame of a deposit the balance and the amount are added up. -/
theorem evaluate_sum (ledger : Ledger store names home balance) (member : name ∈ names) (fuel : Nat) (amount : Float)
    (log : Array Event) :
    ∃ later, evaluate (fuel + 2) (.list [.symbol "+", .symbol "balance", .symbol "amount"]) store.size
        ⟨(store.enter (home name) ["amount"] [.number amount]).2, log⟩ =
      .ok (.number (balance name + amount)) ⟨(store.enter (home name) ["amount"] [.number amount]).2, later⟩ := by
  let called : Machine := ⟨(store.enter (home name) ["amount"] [.number amount]).2, log⟩
  have seen := ledger.lookup?_call member (.number amount)
  have plus : called.store.lookup? store.size "+" = some (.primitive .add) := (seen "+").trans ledger.adds
  have operands : evaluateOperands (evaluate (fuel + 1)) store.size [.symbol "balance", .symbol "amount"] called =
      .ok [.number (balance name), .number amount] called := by
    refine evaluateOperands_cons (evaluate_variable rfl ?_) (evaluateOperands_cons (evaluate_variable rfl ?_) rfl)
    · exact seen "balance"
    · exact seen "amount"
  refine ⟨_, (evaluate_call (by decide) rfl plus rfl operands).trans (applyWith_primitive ?_)⟩
  rfl

/-- A deposit yields the balance with the amount added, which is bound in the account's frame. -/
theorem evaluate_deposit {machine : Machine} (ledger : Ledger machine.store names home balance)
    (member : name ∈ names) (free : AccountName name) (fuel : Nat) (amount : Float) :
    ∃ log, evaluate (fuel + 5) (deposit name amount) Store.globalFrame machine =
      .ok (.number (balance name + amount))
        ⟨(machine.store.enter (home name) ["amount"] [.number amount]).2.define (home name) "balance"
          (.number (balance name + amount)), log⟩ := by
  obtain ⟨identity, found⟩ := ledger.accounts name member
  rw [← ledger.lookup?_globalFrame] at found
  obtain ⟨later, sum⟩ := ledger.evaluate_sum member fuel amount (machine.log.push (.apply name 1))
  have assigned := @evaluate_assign (fuel + 2) _ _ _ "balance" _ _ _ sum (ledger.nearest?_call member (.number amount))
  have body : evaluate (fuel + 4) depositBody machine.store.size _ = _ :=
    (evaluate_sequence assigned).trans
      (evaluate_variable rfl (ledger.lookup?_assigned member (.number amount) (.number (balance name + amount))))
  have operands : evaluateOperands (evaluate (fuel + 4)) Store.globalFrame [.number amount] machine =
      .ok [.number amount] machine := evaluateOperands_cons (evaluate_number amount) rfl
  rw [deposit, evaluate_call free.notKeyword free.notTag found rfl operands, applyWith_closure rfl]
  exact ⟨_, body⟩

theorem deposited (ledger : Ledger store names home balance) (member : name ∈ names) (amount total : Float) :
    Deposited store
      ((store.enter (home name) ["amount"] [.number amount]).2.define (home name) "balance" (.number total))
      (home name) amount total where
  size := by simp
  call := by
    rw [Store.frame?_define_of_ne (Nat.ne_of_gt (ledger.home_lt member)), Store.frame?_enter, if_pos rfl]
    rfl
  account := by
    rw [Store.frame?_define, Store.frame?_enter_of_lt (ledger.home_lt member), ledger.frames name member,
      Option.map_some, if_pos rfl, Bindings.insert_single]
  others frame made apart := by
    rw [Store.frame?_define_of_ne apart, Store.frame?_enter_of_lt made]

/-- A deposit keeps the ledger, with a new balance for its account. -/
theorem after_deposit (ledger : Ledger store names home balance) (member : name ∈ names) {after : Store}
    {amount total : Float} (done : Deposited store after (home name) amount total) :
    Ledger after names home (Function.update balance name total) := by
  have globalSame : after.frame? Store.globalFrame = store.frame? Store.globalFrame :=
    done.others _ ledger.made (ledger.home_ne_globalFrame member).symm
  constructor
  case ordered =>
    intro frame parent link
    rcases Nat.lt_trichotomy frame store.size with made | rfl | beyond
    · by_cases account : frame = home name
      · subst account
        rw [Store.parent?_of_frame? done.account] at link
        cases link
        exact Nat.pos_of_ne_zero (ledger.home_ne_globalFrame member)
      · rw [Store.parent?_congr (done.others frame made account)] at link
        exact ledger.ordered frame parent link
    · rw [Store.parent?_of_frame? done.call] at link
      cases link
      exact ledger.home_lt member
    · have made := Store.lt_size_of_parent? link
      rw [done.size] at made
      exact absurd made (Nat.not_lt.mpr beyond)
  case made =>
    rw [done.size]
    exact Nat.succ_pos _
  case outermost => rw [Store.parent?_congr globalSame, ledger.outermost]
  case adds => rw [Store.local?_congr globalSame, ledger.adds]
  case makes =>
    simp only [Store.local?_congr globalSame]
    exact ledger.makes
  case accounts =>
    simp only [Store.local?_congr globalSame]
    exact ledger.accounts
  case frames =>
    intro other otherMember
    by_cases same : other = name
    · rw [same, done.account, Function.update_self]
    · have apart : home other ≠ home name := fun shared => same (ledger.apart other otherMember name member shared)
      rw [done.others _ (ledger.home_lt otherMember) apart, ledger.frames other otherMember,
        Function.update_of_ne same]
  case apart => exact ledger.apart

/-!
### Opening accounts
-/

/-- The store after an account is opened: the frame of the balance is made, and in it the procedure, which is bound
    in the global frame. -/
def withAccount (store : Store) (name : String) (initial : Float) : Store :=
  let entered := (store.enter Store.globalFrame ["balance"] [.number initial]).2
  { entered with closures := entered.closures + 1 }.define Store.globalFrame name
    (.closure ⟨entered.closures, ["amount"], depositBody, store.size⟩)

theorem evaluate_opening {machine : Machine} (ledger : Ledger machine.store names home balance) (fuel : Nat)
    (name : String) (initial : Float) :
    ∃ log, evaluate (fuel + 3) (opening name initial) Store.globalFrame machine =
      .ok (.symbol name) ⟨withAccount machine.store name initial, log⟩ := by
  obtain ⟨identity, found⟩ := ledger.makes
  rw [← ledger.lookup?_globalFrame] at found
  have operands : evaluateOperands (evaluate (fuel + 1)) Store.globalFrame [.number initial] machine =
      .ok [.number initial] machine := evaluateOperands_cons (evaluate_number initial) rfl
  have called : evaluate (fuel + 2) (.list [.symbol "make-account", .number initial]) Store.globalFrame machine = _ :=
    (evaluate_call (by decide) rfl found rfl operands).trans (applyWith_closure rfl)
  exact ⟨_, evaluate_define called⟩

/-- The frame of a new account. -/
theorem frame?_withAccount_new (made : Store.globalFrame < store.size) (name : String) (initial : Float) :
    (withAccount store name initial).frame? store.size =
      some ⟨.single "balance" (.number initial), some Store.globalFrame⟩ := by
  rw [withAccount, Store.frame?_define_of_ne (Nat.ne_of_gt made)]
  exact (Store.frame?_enter _ _ _ _ _).trans (if_pos rfl)

theorem frame?_withAccount {frame : FrameId} (made : frame < store.size) (inner : frame ≠ Store.globalFrame)
    (name : String) (initial : Float) : (withAccount store name initial).frame? frame = store.frame? frame := by
  rw [withAccount, Store.frame?_define_of_ne inner]
  exact Store.frame?_enter_of_lt made _ _ _

theorem local?_withAccount (made : Store.globalFrame < store.size) (name : String) (initial : Float)
    (wanted : String) :
    (withAccount store name initial).local? Store.globalFrame wanted =
      if wanted = name then some (.closure ⟨store.closures, ["amount"], depositBody, store.size⟩)
      else store.local? Store.globalFrame wanted := by
  have inside : Store.globalFrame < (store.enter Store.globalFrame ["balance"] [.number initial]).2.size := by
    rw [Store.size_enter]
    exact Nat.lt_succ_of_lt made
  have outer := Store.local?_congr (Store.frame?_enter_of_lt made Store.globalFrame ["balance"] [.number initial]) wanted
  refine (Store.local?_define inside Store.globalFrame name wanted _).trans ?_
  rw [outer]
  simp

/-- A new account keeps the ledger and is added to it. -/
theorem after_opening (ledger : Ledger store names home balance) (free : AccountName name) (initial : Float) :
    Ledger (withAccount store name initial) (name :: names) (Function.update home name store.size)
      (Function.update balance name initial) := by
  have bound := local?_withAccount ledger.made name initial
  constructor
  case ordered => exact (ledger.ordered.enter ledger.made ["balance"] [.number initial]).define _ _ _
  case made =>
    rw [withAccount, Store.size_define]
    exact Nat.lt_of_lt_of_eq (Nat.lt_succ_of_lt ledger.made) (Store.size_enter ..).symm
  case outermost =>
    rw [withAccount, Store.parent?_define]
    refine (Store.parent?_enter store Store.globalFrame ["balance"] [.number initial] _).trans ?_
    rw [if_neg (Nat.ne_of_lt ledger.made), ledger.outermost]
  case adds => rw [bound, if_neg free.ne_add.symm, ledger.adds]
  case makes =>
    rw [bound, if_neg free.notMaker.symm]
    exact ledger.makes
  case accounts =>
    intro other member
    rw [bound]
    by_cases same : other = name
    · rw [if_pos same, same, Function.update_self]
      exact ⟨_, rfl⟩
    · rw [if_neg same, Function.update_of_ne same]
      exact ledger.accounts other (List.mem_of_ne_of_mem same member)
  case frames =>
    intro other member
    by_cases same : other = name
    · rw [same, Function.update_self, Function.update_self, frame?_withAccount_new ledger.made]
    · have older := List.mem_of_ne_of_mem same member
      rw [Function.update_of_ne same, Function.update_of_ne same,
        frame?_withAccount (ledger.home_lt older) (ledger.home_ne_globalFrame older), ledger.frames other older]
  case apart =>
    have older : ∀ other ∈ name :: names, other ≠ name →
        other ∈ names ∧ Function.update home name store.size other = home other := fun other member different =>
      ⟨List.mem_of_ne_of_mem different member, Function.update_of_ne different ..⟩
    intro first firstMember second secondMember shared
    rcases eq_or_ne first name with isFirst | firstOlder <;>
      rcases eq_or_ne second name with isSecond | secondOlder
    · exact isFirst.trans isSecond.symm
    · obtain ⟨known, same⟩ := older second secondMember secondOlder
      rw [isFirst, Function.update_self, same] at shared
      exact absurd shared (Nat.ne_of_gt (ledger.home_lt known))
    · obtain ⟨known, same⟩ := older first firstMember firstOlder
      rw [isSecond, Function.update_self, same] at shared
      exact absurd shared (Nat.ne_of_lt (ledger.home_lt known))
    · obtain ⟨firstKnown, firstSame⟩ := older first firstMember firstOlder
      obtain ⟨secondKnown, secondSame⟩ := older second secondMember secondOlder
      rw [firstSame, secondSame] at shared
      exact ledger.apart first firstKnown second secondKnown shared

end Ledger

/-!
### Runs of a session
-/

/-- The amounts of the deposits to an account, in order. -/
def paid (name : String) (history : List (String × Float)) : List Float :=
  (history.filter (·.1 = name)).map (·.2)

/-- The balances after deposits, each the sum from left to right. -/
def balanceAfter (balance : String → Float) (history : List (String × Float)) (name : String) : Float :=
  (paid name history).foldl (· + ·) (balance name)

theorem balanceAfter_cons (balance : String → Float) (name : String) (amount : Float)
    (history : List (String × Float)) :
    balanceAfter balance ((name, amount) :: history) =
      balanceAfter (Function.update balance name (balance name + amount)) history := by
  funext other
  by_cases same : name = other
  · subst same
    simp [balanceAfter, paid]
  · simp [balanceAfter, paid, same, Function.update_of_ne (Ne.symm same)]

theorem balanceAfter_snoc (balance : String → Float) (history : List (String × Float)) (name : String)
    (amount : Float) :
    balanceAfter balance (history ++ [(name, amount)]) name = balanceAfter balance history name + amount := by
  simp [balanceAfter, paid]

namespace Ledger

variable {session : Session} {names : List String} {home : String → FrameId} {balance : String → Float}
  {name : String} {fuel : Nat}

/-- A deposit is answered with the balance after it. -/
theorem submit_deposit (ledger : Ledger session.store names home balance) (member : name ∈ names)
    (free : AccountName name) (enough : 5 ≤ fuel) (amount : Float) :
    (session.submit fuel (deposit name amount)).1 = .ok (.number (balance name + amount)) ∧
      Deposited session.store (session.submit fuel (deposit name amount)).2.store (home name) amount
        (balance name + amount) := by
  obtain ⟨spare, rfl⟩ := Nat.exists_eq_add_of_le' enough
  obtain ⟨log, ending⟩ := ledger.evaluate_deposit member free spare amount
  rw [Session.submit_of_evaluate ending]
  exact ⟨rfl, ledger.deposited member amount _⟩

/-- An opening is answered with the name of the account. -/
theorem submit_opening (ledger : Ledger session.store names home balance) (enough : 5 ≤ fuel) (initial : Float) :
    (session.submit fuel (opening name initial)).1 = .ok (.symbol name) ∧
      (session.submit fuel (opening name initial)).2.store = withAccount session.store name initial := by
  obtain ⟨spare, rfl⟩ := Nat.exists_eq_add_of_le' enough
  obtain ⟨log, ending⟩ := ledger.evaluate_opening (spare + 2) name initial
  rw [Session.submit_of_evaluate ending]
  exact ⟨rfl, rfl⟩

/-- Deposits keep the ledger, in whatever order they come. -/
theorem after_deposits (ledger : Ledger session.store names home balance) (free : ∀ name ∈ names, AccountName name)
    (enough : 5 ≤ fuel) (history : List (String × Float)) (known : ∀ call ∈ history, call.1 ∈ names) :
    Ledger (session.after fuel (history.map fun call => deposit call.1 call.2)).store names home
      (balanceAfter balance history) := by
  induction history generalizing session balance with
  | nil => exact ledger
  | cons call history inductionHypothesis =>
      obtain ⟨name, amount⟩ := call
      have member := known (name, amount) List.mem_cons_self
      have done := (ledger.submit_deposit member (free name member) enough amount).2
      rw [balanceAfter_cons]
      exact inductionHypothesis (ledger.after_deposit member done) fun call inside =>
        known call (List.mem_cons_of_mem _ inside)

/-- Openings keep the ledger and add the accounts to it. -/
theorem after_openings (ledger : Ledger session.store names home balance) (enough : 5 ≤ fuel)
    (openings : List (String × Float)) (distinct : (openings.map Prod.fst).Nodup)
    (free : ∀ account ∈ openings, AccountName account.1) :
    let forms := openings.map fun account => opening account.1 account.2
    session.replies fuel forms = openings.map (fun account => .ok (.symbol account.1)) ∧
      ∃ home' balance', Ledger (session.after fuel forms).store (openings.map Prod.fst ++ names) home' balance' ∧
        (∀ account ∈ openings, balance' account.1 = account.2) ∧
        ∀ other, other ∉ openings.map Prod.fst → balance' other = balance other := by
  induction openings generalizing session names home balance with
  | nil => exact ⟨rfl, home, balance, ledger, nofun, fun _ _ => rfl⟩
  | cons account openings inductionHypothesis =>
      obtain ⟨name, initial⟩ := account
      obtain ⟨fresh, distinct⟩ := List.nodup_cons.mp distinct
      obtain ⟨answered, stored⟩ := @submit_opening session names home balance name fuel ledger enough initial
      have next := ledger.after_opening (free _ List.mem_cons_self) initial
      rw [← stored] at next
      obtain ⟨replies, home', balance', later, initials, untouched⟩ := inductionHypothesis next distinct
        fun account member => free account (List.mem_cons_of_mem _ member)
      refine ⟨?_, home', balance', later.restrict ?_, ?_, ?_⟩
      · exact congrArg₂ List.cons answered replies
      · intro other member
        simp only [List.map_cons, List.cons_append, List.mem_cons, List.mem_append] at member ⊢
        exact or_left_comm.mp member
      · rw [List.forall_mem_cons]
        exact ⟨(untouched name fresh).trans (Function.update_self ..), initials⟩
      · intro other outside
        rw [List.map_cons, List.mem_cons, not_or] at outside
        exact (untouched other outside.2).trans (Function.update_of_ne outside.1 ..)

/-- The definition of the constructor sets up a ledger without accounts. -/
theorem after_makeAccount (enough : 5 ≤ fuel) :
    (Session.fresh.submit fuel makeAccount).1 = .ok (.symbol "make-account") ∧
      ∀ home balance, Ledger (Session.fresh.submit fuel makeAccount).2.store [] home balance := by
  obtain ⟨spare, rfl⟩ := Nat.exists_eq_add_of_le' enough
  have made : evaluate (spare + 4) (.list [.symbol "lambda", .list [.symbol "balance"], accountBody])
      Store.globalFrame Session.fresh.machine =
        .ok (.closure ⟨0, ["balance"], accountBody, Store.globalFrame⟩) ⟨{ Store.fresh with closures := 1 }, #[]⟩ :=
    rfl
  have ending : evaluate (spare + 5) makeAccount Store.globalFrame Session.fresh.machine = _ := evaluate_define made
  rw [Session.submit_of_evaluate ending]
  refine ⟨rfl, fun home balance => ?_⟩
  have bound := @Store.local?_define { Store.fresh with closures := 1 } Store.globalFrame Store.rooted_fresh.made
    Store.globalFrame "make-account"
  constructor
  case ordered => exact Store.wellFormed_fresh.ordered.define _ _ _
  case made => exact Nat.lt_of_lt_of_eq Store.rooted_fresh.made (Store.size_define ..).symm
  case outermost => exact (Store.parent?_define ..).trans Store.rooted_fresh.outermost
  case adds => exact (bound "+" _).trans rfl
  case makes => exact ⟨0, (bound "make-account" _).trans rfl⟩
  case accounts => exact nofun
  case frames => exact nofun
  case apart => exact nofun

end Ledger

/-- Accounts that one constructor makes do not disturb one another. In a new session the constructor is defined and
    any accounts are opened, under different names; then deposits come in any order. Each deposit succeeds and is
    answered with the sum, from left to right, of the initial balance and of the amounts paid into this account so
    far. It changes the frame of this account, adds the frame of its own call, and touches no other frame. The same
    comes of any text that holds the deposit. -/
theorem accounts_independent (fuel : Nat) (enough : 5 ≤ fuel) (openings : List (String × Float))
    (distinct : (openings.map Prod.fst).Nodup) (free : ∀ account ∈ openings, AccountName account.1) :
    let forms := makeAccount :: openings.map fun account => opening account.1 account.2
    let opened := Session.fresh.after fuel forms
    Session.fresh.replies fuel forms =
        .ok (.symbol "make-account") :: openings.map (fun account => .ok (.symbol account.1)) ∧
      ∃ home : String → FrameId,
        (∀ first ∈ openings, ∀ second ∈ openings, home first.1 = home second.1 → first.1 = second.1) ∧
        (∀ account ∈ openings, ∃ procedure, opened.lookup? account.1 = some (.closure procedure) ∧
          procedure.home = home account.1) ∧
        ∀ history : List (String × Float), (∀ call ∈ history, call.1 ∈ openings.map Prod.fst) →
          ∀ name initial, (name, initial) ∈ openings → ∀ amount,
            let before := opened.after fuel (history.map fun call => deposit call.1 call.2)
            let reply := before.submit fuel (deposit name amount)
            let total := (paid name (history ++ [(name, amount)])).foldl (· + ·) initial
            reply.1 = .ok (.number total) ∧ Deposited before.store reply.2.store (home name) amount total ∧
              ∀ source text, read source text = .ok [deposit name amount] →
                before.execute fuel source text = reply := by
  intro forms opened
  obtain ⟨defined, empty⟩ := Ledger.after_makeAccount enough
  obtain ⟨replies, home, balance, ledger, initials, _⟩ :=
    (empty (fun _ => 0) (fun _ => 0)).after_openings enough openings distinct free
  rw [List.append_nil] at ledger
  have listed : ∀ account ∈ openings, account.1 ∈ openings.map Prod.fst := fun _ => List.mem_map_of_mem
  have named : ∀ name ∈ openings.map Prod.fst, AccountName name := by
    intro name member
    obtain ⟨account, inside, rfl⟩ := List.mem_map.mp member
    exact free account inside
  refine ⟨congrArg₂ List.cons defined replies, home, ?_, ?_, ?_⟩
  · intro first firstMember second secondMember shared
    exact ledger.apart _ (listed first firstMember) _ (listed second secondMember) shared
  · intro account member
    obtain ⟨identity, found⟩ := ledger.accounts _ (listed account member)
    exact ⟨_, (ledger.lookup?_globalFrame _).trans found, rfl⟩
  · intro history known name initial member amount before reply total
    have inside : name ∈ openings.map Prod.fst := listed _ member
    have later := ledger.after_deposits named enough history known
    have sum : balanceAfter balance history name + amount = total := by
      rw [← balanceAfter_snoc, balanceAfter, initials _ member]
    have answered := later.submit_deposit inside (named name inside) enough amount
    rw [sum] at answered
    exact ⟨answered.1, answered.2, fun _ _ reads => Session.execute_eq_submit reads before fuel⟩

/-- The constructor as it is written, two accounts, and deposits to the one and the other in turn. -/
theorem accounts_independent_interleaved :
    let text := "(define make-account\n  (lambda (balance)\n    (lambda-one amount\n      (begin\n" ++
      "        (set! balance (+ balance amount))\n        balance))))\n"
    let opened := Session.fresh.after 5 [makeAccount, opening "acc" 1024, opening "savings" 5]
    let before := opened.after 5 [deposit "acc" 20, deposit "savings" 1]
    Session.fresh.execute 5 "make_account.scm" text = Session.fresh.submit 5 makeAccount ∧
      (before.submit 5 (deposit "acc" 20)).1 = .ok (.number (1024 + 20 + 20)) ∧
      (before.submit 5 (deposit "savings" 2)).1 = .ok (.number (5 + 1 + 2)) := by
  have named : ∀ account ∈ [("acc", (1024 : Float)), ("savings", 5)], AccountName account.1 := by
    simp only [List.forall_mem_cons]
    exact ⟨⟨by decide, by decide, by decide, by decide⟩, ⟨by decide, by decide, by decide, by decide⟩, nofun⟩
  obtain ⟨_, home, _, _, answers⟩ := accounts_independent 5 (Nat.le_refl 5) _ (by decide) named
  have replied := answers [("acc", 20), ("savings", 1)] (by simp)
  exact ⟨Session.execute_eq_submit (by cbv) _ _, (replied "acc" 1024 (by simp) 20).1, (replied "savings" 5 (by simp) 2).1⟩

end LexLisp
