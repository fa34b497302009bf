import AccessRules.Json

/-!
# Writing JSON documents

The two texts that the built-in library writes a document as: `render` writes it on one line,
`renderPretty` writes one member or item a line, indented by two blanks a level.

## Main definitions

* `Json.encode`: a text as a string
* `Json.render`, `Json.renderPretty`: the two texts of a document

## Implementation notes

The lists of items and of members are written by functions of their own, so that the recursion is
structural.
-/

namespace AccessRules

namespace Json

/-! ### Strings -/

/-- A digit of a hexadecimal number. -/
def hexDigit (n : Nat) : Char :=
  Nat.digitChar (n % 16)

/-- How a character is written in a JSON string. Only the quote, the backslash and the control
characters are escaped. -/
def escapeChar (c : Char) : List Char :=
  match c with
  | '"' => ['\\', '"']
  | '\\' => ['\\', '\\']
  | '\x08' => ['\\', 'b']
  | '\x0c' => ['\\', 'f']
  | '\n' => ['\\', 'n']
  | '\r' => ['\\', 'r']
  | '\t' => ['\\', 't']
  | c =>
    if c.toNat < 0x20 then ['\\', 'u', '0', '0', hexDigit (c.toNat / 16), hexDigit c.toNat]
    else [c]

/-- A text as the characters of a JSON string. -/
def encodeChars (cs : List Char) : List Char :=
  '"' :: cs.flatMap escapeChar ++ ['"']

/-- A text as a JSON string. -/
def encode (s : String) : String :=
  String.ofList (encodeChars s.toList)

/-! ### One line -/

mutual

/-- A document on one line, without blanks. -/
def render : Json → String
  | null => "null"
  | bool true => "true"
  | bool false => "false"
  | number value => toString value
  | string value => encode value
  | array items => "[" ++ renderItems items ++ "]"
  | object members => "\x7b" ++ renderMembers members ++ "\x7d"

/-- Items, with a comma between two of them. -/
def renderItems : List Json → String
  | [] => ""
  | [item] => item.render
  | item :: items => item.render ++ "," ++ renderItems items

/-- Members, with a comma between two of them. -/
def renderMembers : List (String × Json) → String
  | [] => ""
  | [(key, value)] => encode key ++ ":" ++ value.render
  | (key, value) :: members =>
    encode key ++ ":" ++ value.render ++ "," ++ renderMembers members

end

/-! ### One line for each member -/

/-- The start of a line at a level of nesting. -/
def newline (level : Nat) : String :=
  "\n" ++ String.ofList (List.replicate (2 * level) ' ')

mutual

/-- A document at a level of nesting. -/
def renderAt (level : Nat) : Json → String
  | array [] => "[]"
  | array items => "[" ++ renderItemsAt (level + 1) items ++ newline level ++ "]"
  | object [] => "\x7b\x7d"
  | object members => "\x7b" ++ renderMembersAt (level + 1) members ++ newline level ++ "\x7d"
  | null => render null
  | bool value => render (bool value)
  | number value => render (number value)
  | string value => render (string value)

/-- Items, each on a line. -/
def renderItemsAt (level : Nat) : List Json → String
  | [] => ""
  | [item] => newline level ++ item.renderAt level
  | item :: items => newline level ++ item.renderAt level ++ "," ++ renderItemsAt level items

/-- Members, each on a line. -/
def renderMembersAt (level : Nat) : List (String × Json) → String
  | [] => ""
  | [(key, value)] => newline level ++ encode key ++ ": " ++ value.renderAt level
  | (key, value) :: members =>
    newline level ++ encode key ++ ": " ++ value.renderAt level ++ "," ++
      renderMembersAt level members

end

/-- A document with one line for each member and item. -/
def renderPretty (document : Json) : String :=
  document.renderAt 0

example : encode "a\"\\\n\x01é" = "\"a\\\"\\\\\\n\\u0001é\"" := by decide +kernel
example : (object [("a", array [number 1, bool true]), ("b", object [])]).render =
    "\x7b\"a\":[1,true],\"b\":\x7b\x7d\x7d" := by decide +kernel

end Json

end AccessRules
