import MiniLisp.Eval.Machine

/-!
# Telling events

How the events of a run are told to somebody who follows it: a level, and fields of text. The first
field says what happened.
-/

namespace MiniLisp

/-- How much detail an event is part of. -/
inductive EventLevel where
  | debug | trace
deriving DecidableEq

/-- The name of a level. -/
def EventLevel.name : EventLevel → String
  | debug => "debug"
  | trace => "trace"

namespace Event

/-- The level of an event. Only the beginning of a form of the program is not mere detail. -/
def level : Event → EventLevel
  | evaluating .. => .debug
  | expanded .. => .trace
  | applying .. => .trace

/-- The fields of an event. -/
def fields : Event → List (String × String)
  | evaluating form scope =>
    [("message", "evaluating"), ("form", form.text), ("scope", scope)]
  | expanded name expansion =>
    [("message", "macro expanded"), ("name", name), ("expansion", expansion.text)]
  | applying name given =>
    [("message", "bounce"), ("procedure", name.getD "lambda"), ("args", toString given)]

end Event

/-- The events of a run in the order in which they came. -/
def Machine.events (m : Machine) : List Event := (m.trace.getD []).reverse

end MiniLisp
