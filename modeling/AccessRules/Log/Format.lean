import AccessRules.Text.Blank
import AccessRules.Text.Case

/-!
# Log formats

Log events are written one per line, either as documents or in a compact form for reading. The
format is chosen by name; case and surrounding blanks do not matter.
-/

namespace AccessRules.Log

/-- How log events are written. -/
inductive Format where
  /-- One document per line. -/
  | json
  /-- One line for reading. -/
  | compact
  deriving DecidableEq, Repr

namespace Format

/-- The name of a format. -/
def name : Format → String
  | json => "json"
  | compact => "compact"

/-- The name that a text is compared as. -/
def fold (text : String) : String :=
  Text.lower (Text.trim text)

/-- The format of a name. -/
def ofName? (text : String) : Option Format :=
  let name := fold text
  if name = "json" then some json
  else if name = "compact" ∨ name = "text" then some compact
  else none

theorem ofName?_json : ofName? "json" = some json := by
  decide +kernel

/-- The message about a text that names no format. -/
def unknownMessage (text : String) : String :=
  "unknown log format '" ++ fold text ++ "' (expected json or compact)"

end Format

end AccessRules.Log
