import AccessRules.Json
import AccessRules.Text.Blank

/-!
# Permissions

A permission is an opaque, case-sensitive name. The same text may also be read as a truth value
or as the universal wildcard, once the blanks around it are dropped.
-/

namespace AccessRules

/-- The name of a granted permission. -/
structure Permission where
  name : String
  deriving DecidableEq, Repr

namespace Permission

/-- Whether a name looks as if it were meant as a pattern. Names are compared literally all the
same. -/
def isPatternLike (p : Permission) : Bool :=
  p.name.toList.any fun c => c == '*' || c == '?'

/-- The permissions in the order of the code points of their names, each once. -/
def sortedUnique (ps : List Permission) : List Permission :=
  ((ps.map name).mergeSort (· ≤ ·)).eraseReps.map mk

/-- A permission as a document: its name, without a wrapper. -/
def toJson (p : Permission) : Json :=
  .string p.name

end Permission

/-- The truth value that a text spells, blanks around it ignored. -/
def literal? (text : String) : Option Bool :=
  match Text.trimChars text.toList with
  | ['t', 'r', 'u', 'e'] => some true
  | ['f', 'a', 'l', 's', 'e'] => some false
  | _ => none

/-- Whether a text is the universal wildcard, blanks around it ignored. -/
def isWildcard (text : String) : Bool :=
  Text.trimChars text.toList = ['*']

example : literal? "  true " = some true := by decide +kernel
example : literal? "True" = none := by decide +kernel
example : isWildcard " * " = true := by decide +kernel
example : isWildcard "**" = false := by decide +kernel

end AccessRules
