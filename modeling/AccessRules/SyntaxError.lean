/-!
# Syntax errors

The reasons why a text is no permission expression. Positions count bytes of the normally
spelled text; `tooLong` measures the text as it was supplied.
-/

namespace AccessRules

/-- Why a text is no permission expression. -/
inductive SyntaxError where
  /-- There is no token at all. -/
  | empty
  /-- The text ends where a term has to follow. -/
  | unexpectedEnd
  /-- A token stands where the grammar has no place for it. -/
  | unexpectedToken (found : String) (position : Nat)
  /-- The text ends inside the group that was opened at `position`. -/
  | unclosedGroup (position : Nat)
  /-- A complete expression is followed by more. -/
  | trailingInput (position : Nat)
  /-- A character that begins no token. -/
  | unrecognizedCharacter (char : Char) (position : Nat)
  /-- The text takes more bytes than the limit. -/
  | tooLong (length limit : Nat)
  /-- More groups than the limit are open at once. -/
  | tooDeep (limit : Nat)
  deriving DecidableEq, Repr

namespace SyntaxError

/-- The message of an error. -/
def message : SyntaxError → String
  | empty => "empty expression"
  | unexpectedEnd => "unexpected end of expression, expected a permission, literal, or '('"
  | unexpectedToken found position => s!"unexpected '{found}' at position {position}"
  | unclosedGroup position => s!"unclosed '(' opened at position {position}"
  | trailingInput position => s!"unexpected trailing input at position {position}"
  | unrecognizedCharacter char position =>
    s!"unrecognized character '{char}' at position {position}"
  | tooLong length limit => s!"expression is {length} bytes, limit is {limit}"
  | tooDeep limit => s!"groups nested deeper than {limit} levels"

/-- The byte that an error points at, if it points at one. -/
def position? : SyntaxError → Option Nat
  | unexpectedToken _ position => some position
  | unclosedGroup position => some position
  | trailingInput position => some position
  | unrecognizedCharacter _ position => some position
  | empty | unexpectedEnd | tooLong _ _ | tooDeep _ => none

end SyntaxError

end AccessRules
