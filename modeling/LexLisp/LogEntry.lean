/-
Module: LexLisp.LogEntry
Purpose: Events as they are written to the log. An entry has a level, a message that says what kind of event it is, and
  named fields. A value or a form is written as it is displayed, and a fault by its message.
Main exports: LogLevel, LogField, LogEntry, Event.entry
-/
import LexLisp.Machine

namespace LexLisp

/-- How much of the log is to be asked for before an entry is seen. -/
inductive LogLevel where
  | trace
  | debug
deriving Repr, Inhabited, DecidableEq

/-- The name of a level. -/
def LogLevel.text : LogLevel → String
  | .trace => "TRACE"
  | .debug => "DEBUG"

/-- What stands in a field. -/
inductive LogField where
  | text (text : String)
  | count (number : Nat)
deriving Repr, Inhabited, DecidableEq

/-- An entry of the log. -/
structure LogEntry where
  level : LogLevel
  message : String
  fields : List (String × LogField)
deriving Repr, Inhabited, DecidableEq

/-- The entry that an event is written as. -/
def Event.entry : Event → LogEntry
  | .apply operator count => ⟨.trace, "apply", [("operator", .text operator), ("argc", .count count)]⟩
  | .define name value => ⟨.debug, "define", [("name", .text name), ("value", .text value.text)]⟩
  | .assign name value => ⟨.debug, "set!", [("name", .text name), ("value", .text value.text)]⟩
  | .failed index form fault =>
    ⟨.debug, "top-level evaluation failed",
      [("index", .count index), ("form", .text form.text), ("error", .text fault.message)]⟩

end LexLisp
