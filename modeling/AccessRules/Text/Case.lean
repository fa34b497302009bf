/-!
# ASCII case

Names that are not case-sensitive are compared in lower case. Only ASCII letters have one.
-/

namespace AccessRules.Text

/-- The characters of a text in lower case. -/
def lowerChars (cs : List Char) : List Char :=
  cs.map Char.toLower

/-- A text in lower case. -/
def lower (s : String) : String :=
  String.ofList (lowerChars s.toList)

end AccessRules.Text
