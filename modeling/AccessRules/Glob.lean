import AccessRules.Regex

/-!
# Globs

A glob is matched against the whole of a name: `*` stands for any run of characters, the empty
one included, `?` for exactly one character, and every other character for itself. It is compiled
to a regular expression: its literal parts escaped, `.*` for `*`, `.` for `?`, and anchors at both
ends, so that only whole names match.

## Main definitions

* `Glob.regexText`: the regular expression of a pattern
* `Glob`, `Glob.compile`: a pattern with its compiled expression
* `Glob.isMatch`, `Glob.matchesAny`, `Glob.filter`: the names that a glob matches
-/

namespace AccessRules

open RegexLibrary (escape)

namespace Glob

variable [RegexLibrary]

/-- The expression of what is left of a pattern, behind the text `literal`, which is still to be
written. -/
def bodyFrom (literal : String) : List Char → String
  | [] => escape literal
  | c :: cs =>
    if c = '*' then escape literal ++ ".*" ++ bodyFrom "" cs
    else if c = '?' then escape literal ++ "." ++ bodyFrom "" cs
    else bodyFrom (literal.push c) cs

/-- The regular expression of a pattern. -/
def regexText (pattern : String) : String :=
  "(?s)^" ++ bodyFrom "" pattern.toList ++ "$"

end Glob

/-- A pattern and its compiled expression. -/
structure Glob [RegexLibrary] where
  source : String
  regex : RegexLibrary.Regex
  compile_regexText : RegexLibrary.compile (Glob.regexText source) = .ok regex

namespace Glob

variable [RegexLibrary]

/-- The glob of a pattern, unless its expression cannot be compiled. -/
def compile (pattern : String) : Except RegexError Glob :=
  match h : RegexLibrary.compile (regexText pattern) with
  | .ok regex => .ok ⟨pattern, regex, h⟩
  | .error e => .error e

theorem source_of_compile {pattern : String} {g : Glob} (h : compile pattern = .ok g) :
    g.source = pattern := by
  rw [compile] at h
  split at h
  · exact Except.ok.inj h ▸ rfl
  · contradiction

/-- A pattern has a glob if its expression can be compiled. -/
theorem exists_compile_eq_ok {pattern : String} {regex : RegexLibrary.Regex}
    (h : RegexLibrary.compile (regexText pattern) = .ok regex) : ∃ g, compile pattern = .ok g := by
  rw [compile]
  split
  · exact ⟨_, rfl⟩
  · next herror => cases h.symm.trans herror

/-- Whether a glob matches the whole of a name. -/
def isMatch (g : Glob) (name : String) : Bool :=
  RegexLibrary.isMatch g.regex name

/-- Whether a glob matches at least one of the names. -/
def matchesAny (g : Glob) (names : List String) : Bool :=
  names.any g.isMatch

/-- The names that a glob matches, in their order. -/
def filter (g : Glob) (names : List String) : List String :=
  names.filter g.isMatch

end Glob

end AccessRules
