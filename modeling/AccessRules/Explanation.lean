import AccessRules.Decision
import AccessRules.Json
import AccessRules.Text.Quoted

/-!
# Explanations

An explanation decides a text as `Decision.evaluateText` does and says what became of each of its
patterns: those that the decision asked about, with their answers and the granted names that they
match, and those that it skipped.

## Main definitions

* `Leaf`, `Verdict`, `Explanation`: what is said about a pattern, a text and a decision
* `Explanation.ofText`: the explanation of a text
* `Explanation.reason`, `Explanation.toJson`: how it is put into words and into a document

## Implementation notes

An explanation is what happened, one of three cases. The fields that a reader sees (the canonical
text, the reason, the error) are functions of the case, so that they cannot disagree with it.
-/

namespace AccessRules

/-- What became of one pattern of an expression. -/
inductive Leaf where
  /-- The decision did not ask about the pattern. -/
  | skipped (pattern : String)
  /-- The decision asked about the pattern and got this answer. -/
  | visited (pattern : String) (result : Bool) (matched : List String)
  deriving DecidableEq, Repr

namespace Leaf

/-- The pattern of a leaf. -/
def pattern : Leaf → String
  | skipped pattern => pattern
  | visited pattern _ _ => pattern

/-- Whether the decision asked about the pattern. -/
def evaluated : Leaf → Bool
  | skipped _ => false
  | visited _ _ _ => true

/-- The answer about a pattern that was asked about. -/
def result? : Leaf → Option Bool
  | skipped _ => none
  | visited _ result _ => some result

/-- The granted names that the pattern matches; none for a pattern that was not asked about. -/
def matched : Leaf → List String
  | skipped _ => []
  | visited _ _ matched => matched

end Leaf

/-- How a text was decided. -/
inductive Verdict where
  /-- The text is a truth value. -/
  | literal (value : Bool)
  /-- The text is no expression. -/
  | malformed (error : SyntaxError)
  /-- The text spells an expression, with these leaves in the order of the text. -/
  | evaluated (expr : Expr) (granted : Bool) (leaves : List Leaf)
  deriving DecidableEq, Repr

/-- A text and how it was decided. -/
structure Explanation where
  expression : String
  verdict : Verdict
  deriving DecidableEq, Repr

namespace Explanation

/-! ### Finding an explanation -/

variable [RegexLibrary]

/-- Decide an expression and add its leaves to those before it. A part that is not `active` is
one that the decision skips: nothing is asked in it, its leaves are recorded all the same, and the
truth value that it has here means nothing. -/
def walk (granted : List String) : Bool → Expr → List Leaf → Checking (Bool × List Leaf)
  | _, .literal value, leaves => pure (value, leaves)
  | true, .pattern text, leaves => do
    let result ← Decision.matchesPattern granted text
    let matched ← Decision.matchingPermissions granted text
    return (result, leaves ++ [.visited text result matched])
  | false, .pattern text, leaves => pure (false, leaves ++ [.skipped text])
  | active, .and left right, leaves => do
    let (holds, leaves) ← walk granted active left leaves
    let (result, leaves) ← walk granted (active && holds) right leaves
    return (holds && result, leaves)
  | active, .or left right, leaves => do
    let (holds, leaves) ← walk granted active left leaves
    let (result, leaves) ← walk granted (active && !holds) right leaves
    return (holds || result, leaves)

/-- Decide a text and explain the decision. A malformed text is not reported. -/
def ofText (settings : Settings) (granted : List String) (text : String) :
    Checking Explanation :=
  match literal? text with
  | some value => pure ⟨text, .literal value⟩
  | none =>
    match Expr.ofText settings text with
    | .error e => pure ⟨text, .malformed e⟩
    | .ok e => do
      let (result, leaves) ← walk granted true e []
      return ⟨text, .evaluated e result leaves⟩

/-! ### Reading an explanation -/

/-- The decision. -/
def granted (x : Explanation) : Bool :=
  match x.verdict with
  | .literal value => value
  | .malformed _ => false
  | .evaluated _ granted _ => granted

/-- The text with its operators spelled normally. -/
def normalized (x : Explanation) : String :=
  Spelling.normalize x.expression

/-- The canonical text of a text that could be read. -/
def canonical? (x : Explanation) : Option String :=
  match x.verdict with
  | .literal value => some (Expr.literal value).text
  | .malformed _ => none
  | .evaluated e _ _ => some e.text

/-- The leaves of the expression in the order of the text. -/
def leaves (x : Explanation) : List Leaf :=
  match x.verdict with
  | .evaluated _ _ leaves => leaves
  | _ => []

/-- Why the text could not be read. -/
def syntaxError? (x : Explanation) : Option SyntaxError :=
  match x.verdict with
  | .malformed e => some e
  | _ => none

/-- The patterns that were asked about and got this answer. -/
def answered (result : Bool) (leaves : List Leaf) : List String :=
  (leaves.filter fun leaf => leaf.result? == some result).map Leaf.pattern

/-- The reason of a decision: the patterns with the answer that the decision has. -/
def reason (x : Explanation) : String :=
  match x.verdict with
  | .literal value => "Expression is the literal '" ++ (Expr.literal value).text ++ "'"
  | .malformed _ => "Malformed expression; access is denied"
  | .evaluated _ true leaves =>
    match answered true leaves with
    | [] => "Expression holds through its literal terms"
    | satisfied => "Expression holds; satisfied patterns: " ++ Text.quoteList satisfied
  | .evaluated _ false leaves =>
    match answered false leaves with
    | [] => "Expression is false through its literal terms"
    | unmatched => "Expression does not hold; unmatched patterns: " ++ Text.quoteList unmatched

/-! ### Writing an explanation -/

/-- A member that is left out where there is no value. -/
def member? (key : String) : Option Json → List (String × Json)
  | none => []
  | some value => [(key, value)]

/-- A leaf as a document. -/
def leafJson (leaf : Leaf) : Json :=
  .object ([("pattern", .string leaf.pattern), ("evaluated", .bool leaf.evaluated)] ++
    member? "result" (leaf.result?.map .bool) ++
    [("matched", .array (leaf.matched.map .string))])

/-- An explanation as a document. -/
def toJson (x : Explanation) : Json :=
  .object ([("expression", .string x.expression), ("normalized", .string x.normalized)] ++
    member? "canonical" (x.canonical?.map .string) ++
    [("granted", .bool x.granted), ("reason", .string x.reason),
      ("leaves", .array (x.leaves.map leafJson))] ++
    member? "syntax_error" (x.syntaxError?.map fun e => .string e.message))

end Explanation

end AccessRules
