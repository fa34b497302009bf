import AccessRules.Json.Number
import AccessRules.Text.Extent
import AccessRules.Text.Quoted

/-!
# Faults of JSON texts

What is wrong with a text that was read as JSON, and where. Readers take characters off the front
of a text, so they know how much of it is left; the line and the column follow from that once the
whole text is at hand.

## Main definitions

* `Fault`: a cause, and how many bytes of the text are left after its place
* `Fault.before`, `Fault.within`: faults at the place that a reader has come to
* `Fault.message`: the cause with its line and column
-/

namespace AccessRules.Json

/-- A value that was found where another kind was expected. -/
inductive Found where
  | null
  | bool (value : Bool)
  | number (value : Number)
  | string (value : String)
  | sequence
  | map

/-- How a message names a value. -/
def Found.text : Found → String
  | null => "null"
  | bool value => "boolean \x60" ++ (if value then "true" else "false") ++ "\x60"
  | number value => value.text
  | string value => "string " ++ Text.quote value
  | sequence => "sequence"
  | map => "map"

namespace Fault

/-- What is wrong. -/
inductive Cause where
  /-- The text ends inside a value. -/
  | endInValue
  /-- The text ends inside a string. -/
  | endInString
  /-- The text ends inside an array. -/
  | endInArray
  /-- The text ends inside an object. -/
  | endInObject
  | expectedValue
  | expectedIdent
  | expectedColon
  | expectedItemEnd
  | expectedMemberEnd
  | keyNotString
  | trailingComma
  | trailingCharacters
  | invalidNumber
  | numberOutOfRange
  | invalidEscape
  /-- The first half of a surrogate pair is not followed by an escape. -/
  | halfPair
  /-- An escape stands for half of a surrogate pair, and its neighbour is not the other half. -/
  | loneSurrogate
  | controlCharacter
  /-- A value of the wrong kind. -/
  | wrongKind (found : Found) (expected : String)
  /-- A value of the right kind that is out of range. -/
  | wrongValue (found : Found) (expected : String)
  | duplicateMember (key : String)

/-- The kinds of faults. -/
inductive Category where
  /-- The text is no JSON. -/
  | malformed
  /-- The text ends too early. -/
  | truncated
  /-- The text is JSON, but not for a value of the type that is read. -/
  | mistyped
  deriving DecidableEq, Repr

namespace Cause

/-- The kind of a fault. -/
def category : Cause → Category
  | endInValue | endInString | endInArray | endInObject => .truncated
  | wrongKind _ _ | wrongValue _ _ | duplicateMember _ => .mistyped
  | _ => .malformed

/-- The message of a fault, without its place. -/
def text : Cause → String
  | endInValue => "EOF while parsing a value"
  | endInString => "EOF while parsing a string"
  | endInArray => "EOF while parsing a list"
  | endInObject => "EOF while parsing an object"
  | expectedValue => "expected value"
  | expectedIdent => "expected ident"
  | expectedColon => "expected \x60:\x60"
  | expectedItemEnd => "expected \x60,\x60 or \x60]\x60"
  | expectedMemberEnd => "expected \x60,\x60 or \x60\x7d\x60"
  | keyNotString => "key must be a string"
  | trailingComma => "trailing comma"
  | trailingCharacters => "trailing characters"
  | invalidNumber => "invalid number"
  | numberOutOfRange => "number out of range"
  | invalidEscape => "invalid escape"
  | halfPair => "unexpected end of hex escape"
  | loneSurrogate => "lone leading surrogate in hex escape"
  | controlCharacter => "control character (\\u0000-\\u001F) found while parsing a string"
  | wrongKind found expected => "invalid type: " ++ found.text ++ ", expected " ++ expected
  | wrongValue found expected => "invalid value: " ++ found.text ++ ", expected " ++ expected
  | duplicateMember key => "duplicate field \x60" ++ key ++ "\x60"

end Cause

end Fault

/-- What is wrong with a text, and how many bytes of it are left after that place. -/
structure Fault where
  cause : Fault.Cause
  left : Nat

namespace Fault

/-- A fault before the characters that are left. -/
def before (cause : Cause) (cs : List Char) : Fault :=
  ⟨cause, Text.extent cs⟩

/-- A fault one byte into the characters that are left, or at the end of the text. -/
def within (cause : Cause) (cs : List Char) : Fault :=
  ⟨cause, Text.extent cs - 1⟩

/-- The line and the column of the place `offset` bytes into a text, when `line` and `column`
are those of its start. Lines count from 1 and columns from 0. -/
def locate (line column offset : Nat) : List Char → Nat × Nat
  | [] => (line, column)
  | c :: cs =>
    if offset < c.utf8Size then (line, column + offset)
    else if c = '\n' then locate (line + 1) 0 (offset - 1) cs
    else locate line (column + c.utf8Size) (offset - c.utf8Size) cs

/-- The message of a fault in a text. -/
def message (fault : Fault) (text : String) : String :=
  let (line, column) := locate 1 0 (text.utf8ByteSize - fault.left) text.toList
  fault.cause.text ++ " at line " ++ toString line ++ " column " ++ toString column

end Fault

end AccessRules.Json
