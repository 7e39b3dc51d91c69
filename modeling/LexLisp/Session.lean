/-
Module: LexLisp.Session
Purpose: Programs that share one global frame, one after another. A failure leaves behind what was bound
  before it.
Main exports: Session, Session.fresh, Session.execute, Session.executeJson, Session.reset
-/
import LexLisp.Program

namespace LexLisp

/-- A session: the machine between two programs. -/
structure Session where
  machine : Machine
deriving Inhabited

namespace Session

/-- A session with the primitives and nothing else. -/
def fresh : Session := ⟨.ofStore .fresh⟩

/-- The store of a session. -/
def store (session : Session) : Store := session.machine.store

/-- The outcome of a run, and the session after it. -/
def perform {α : Type} (session : Session) (run : Run α) : Except Failure α × Session :=
  match run session.machine with
  | .ok result machine => (.ok result, ⟨machine⟩)
  | .error failure machine => (.error failure, ⟨machine⟩)

/-- Runs a program text. -/
def execute (session : Session) (fuel : Nat) (source text : String) : Except Failure Value × Session :=
  session.perform (runText fuel source text Store.globalFrame)

/-- Evaluates a tree in its JSON text. -/
def executeJson (session : Session) (fuel : Nat) (source text : String) : Except Failure Value × Session :=
  session.perform (runJson fuel source text Store.globalFrame)

/-- Forgets everything but the primitives. -/
def reset (_ : Session) : Session := fresh

/-- The names that the global frame binds, in order. -/
def names (session : Session) : List String :=
  session.store.names Store.globalFrame

/-- What a name is bound to. -/
def lookup? (session : Session) (name : String) : Option Value :=
  session.store.lookup? Store.globalFrame name

end Session

end LexLisp
