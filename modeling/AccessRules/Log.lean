import AccessRules.Json
import AccessRules.Log.Format

/-!
# Log events

An event has a target, a level, a message and named values. Which events are let through, and how
they are written, is left to a library; that there is a filter to fall back on is not.

## Main definitions

* `Log.Event`: what is logged
* `LogLibrary`: what is asked of the library that filters and writes events
* `LogLibrary.filterOf`: the filter of a run
-/

namespace AccessRules.Log

/-- How urgent an event is, most urgent first. -/
inductive Level where
  | error
  | warn
  | info
  | debug
  | trace
  deriving DecidableEq, Repr

namespace Level

/-- The name of a level. -/
def name : Level → String
  | error => "ERROR"
  | warn => "WARN"
  | info => "INFO"
  | debug => "DEBUG"
  | trace => "TRACE"

end Level

/-- An event and the values that belong to it. -/
structure Event where
  /-- The part of the program that the event comes from. -/
  target : String
  level : Level
  message : String
  values : List (String × Json)

end AccessRules.Log

namespace AccessRules

/-- What a library for log events offers. -/
class LogLibrary where
  /-- Which events are let through. -/
  Filter : Type
  /-- The filter that the value of a variable describes; none if the variable is not set, or if its
  value describes no filter. -/
  ofVariable? : Option String → Option Filter
  /-- The filter that a text describes, as far as it does. -/
  ofText : String → Filter
  /-- Whether an event is let through. -/
  admits : Filter → Log.Event → Bool
  /-- The line of an event, without the time. -/
  line : Log.Format → Log.Event → String

namespace LogLibrary

variable [LogLibrary]

/-- The filter of a run: the one that the variable describes, or else the one of `info`. -/
def filterOf (value : Option String) : Filter :=
  (ofVariable? value).getD (ofText "info")

end LogLibrary

end AccessRules
