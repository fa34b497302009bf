import AccessRules.Text.Unprintable

/-!
# Quoted texts

A text that a message quotes stands between double quotes. Quotes, backslashes and characters
that do not show are spelled out, so that the quoted text is unambiguous and stays on its line.
-/

namespace AccessRules.Text

/-- How a character is written between quotes. -/
def quoteChar (c : Char) : List Char :=
  match c with
  | '\x00' => ['\\', '0']
  | '\t' => ['\\', 't']
  | '\n' => ['\\', 'n']
  | '\r' => ['\\', 'r']
  | '"' => ['\\', '"']
  | '\\' => ['\\', '\\']
  | c =>
    if isUnprintable c then ['\\', 'u', '\x7b'] ++ Nat.toDigits 16 c.toNat ++ ['\x7d'] else [c]

/-- A text between quotes. -/
def quote (s : String) : String :=
  "\"" ++ String.ofList (s.toList.flatMap quoteChar) ++ "\""

/-- A list of texts between quotes. -/
def quoteList (ss : List String) : String :=
  "[" ++ ", ".intercalate (ss.map quote) ++ "]"

example : quoteList ["a", "b\"c"] = "[\"a\", \"b\\\"c\"]" := by decide +kernel

end AccessRules.Text
