/-!
# Tokens of permission expressions

A token is a kind and the byte position at which it begins. A scanned text yields an
`unrecognized` token at most once, as its last; the parser accepts any list of tokens and makes
no use of that.
-/

namespace AccessRules

namespace Token

/-- What a token is. -/
inductive Kind where
  /-- An opening parenthesis. -/
  | opening
  /-- A closing parenthesis. -/
  | closing
  /-- The conjunction `&&`. -/
  | and
  /-- The disjunction `||`. -/
  | or
  /-- One of the words `true` and `false`. -/
  | literal (value : Bool)
  /-- Any other word: a permission name, possibly with wildcards. -/
  | pattern (text : String)
  /-- A character that begins no token. -/
  | unrecognized (char : Char)
  deriving DecidableEq, Repr

/-- The text of a token: what it is written as, and how messages name it. -/
def Kind.text : Kind → String
  | opening => "("
  | closing => ")"
  | and => "&&"
  | or => "||"
  | literal true => "true"
  | literal false => "false"
  | pattern text => text
  | unrecognized char => String.singleton char

/-- The kind of a word: the two truth values are literals, every other word is a pattern. -/
def Kind.ofWord (word : List Char) : Kind :=
  if word = ['t', 'r', 'u', 'e'] then literal true
  else if word = ['f', 'a', 'l', 's', 'e'] then literal false
  else pattern (String.ofList word)

/-- A word is the text of its kind. -/
theorem Kind.toList_text_ofWord (word : List Char) : (Kind.ofWord word).text.toList = word := by
  rw [Kind.ofWord]
  split
  · next h => subst h; rfl
  · split
    · next h => subst h; rfl
    · simp [Kind.text]

end Token

/-- A token and the position of its first byte. -/
structure Token where
  kind : Token.Kind
  position : Nat
  deriving DecidableEq, Repr

end AccessRules
