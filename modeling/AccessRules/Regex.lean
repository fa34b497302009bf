/-!
# Libraries of regular expressions

What reads and matches regular expressions is not part of this library, so it is a parameter. The
class below is what is asked of it. Nothing is known about an instance but what it promises.

## Main definitions

* `RegexLibrary`: what a library of regular expressions offers
* `RegexLibrary.Plain`: the expressions that globs give rise to
* `RegexLibrary.Documented`: what a library promises about them

## Implementation notes

A promise is made about an expression and what stands behind it, and only for plain expressions.
In general an expression does not mean the same wherever it stands: a quantifier or a bar behind it
would change that. Nor is it promised which expressions compile: there is a limit on the size of
what an expression is compiled to, and the size is the library's own business.
-/

namespace AccessRules

/-- Why an expression could not be compiled. -/
structure RegexError where
  message : String
  deriving DecidableEq, Repr

/-- What a library of regular expressions offers. -/
class RegexLibrary where
  /-- The compiled expressions. -/
  Regex : Type
  /-- Compile an expression. -/
  compile : String → Except RegexError Regex
  /-- Whether an expression matches somewhere in a text. -/
  isMatch : Regex → String → Bool
  /-- An expression for a text as it stands. -/
  escape : String → String

namespace RegexLibrary

variable [RegexLibrary]

/-- The expressions that escaped texts, `.` and `.*` make up when they are written one behind the
other. -/
inductive Plain : String → Prop where
  | nil : Plain ""
  | escape (text : String) {rest : String} (h : Plain rest) :
      Plain (RegexLibrary.escape text ++ rest)
  | anyOne {rest : String} (h : Plain rest) : Plain ("." ++ rest)
  | anyRun {rest : String} (h : Plain rest) : Plain (".*" ++ rest)

/-- What a library promises. `Denotes body cs` says that the expression `body` stands for the text
`cs`, where `.` stands for every character. -/
structure Documented (Denotes : String → List Char → Prop) : Prop where
  /-- The empty expression stands for the empty text. -/
  nil (cs : List Char) : Denotes "" cs ↔ cs = []
  /-- An escaped text stands for itself. -/
  escape (text : String) {rest : String} (h : Plain rest) (cs : List Char) :
    Denotes (RegexLibrary.escape text ++ rest) cs ↔
      ∃ cs', cs = text.toList ++ cs' ∧ Denotes rest cs'
  /-- A `.` stands for any one character. -/
  anyOne {rest : String} (h : Plain rest) (cs : List Char) :
    Denotes ("." ++ rest) cs ↔ ∃ c cs', cs = c :: cs' ∧ Denotes rest cs'
  /-- A `.*` stands for any text. -/
  anyRun {rest : String} (h : Plain rest) (cs : List Char) :
    Denotes (".*" ++ rest) cs ↔ ∃ piece cs', cs = piece ++ cs' ∧ Denotes rest cs'
  /-- With the flag `s` a `.` stands for every character, line breaks included. Between the anchors
  `^` and `$` an expression has to match the whole of a text. -/
  anchored {body : String} {regex : Regex} (h : Plain body)
    (hcompile : compile ("(?s)^" ++ body ++ "$") = .ok regex) (name : String) :
    isMatch regex name = true ↔ Denotes body name.toList

end RegexLibrary

end AccessRules
