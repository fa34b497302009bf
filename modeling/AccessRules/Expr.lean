/-!
# Permission expressions

An expression combines patterns and truth values by conjunction and disjunction. This module
holds the trees, their canonical text and their evaluation.

## Main definitions

* `Expr`: the trees
* `Expr.evaluateM`, `Expr.evaluate`, `Expr.visited`: evaluation, and what it asks about
* `Expr.patterns`, `Expr.text`: the patterns of a tree and its canonical text

## Main statements

* `evaluate_literal`, `evaluate_pattern`, `evaluate_and`, `evaluate_or`: evaluation is the Boolean
  value of the tree

## Implementation notes

Evaluation is written once, for leaves that act in any monad. The order in which leaves are asked
is thereby part of the definition: a plain Boolean, the list of visited patterns and the state of
an engine are all read off the same recursion.
-/

namespace AccessRules

/-- A permission expression. Groups leave no trace in the tree. -/
inductive Expr where
  /-- A truth value. -/
  | literal (value : Bool)
  /-- A permission name, possibly with wildcards. -/
  | pattern (text : String)
  /-- Both sides hold. -/
  | and (left right : Expr)
  /-- At least one side holds. -/
  | or (left right : Expr)
  deriving DecidableEq, Repr

namespace Expr

/-! ### Evaluation -/

/-- Decide an expression, asking `leaf` about patterns from left to right. The right side of an
operator is not visited once the left side decides. -/
def evaluateM {m : Type → Type} [Monad m] (leaf : String → m Bool) : Expr → m Bool
  | literal value => pure value
  | pattern text => leaf text
  | and left right => do
    if ← left.evaluateM leaf then right.evaluateM leaf else pure false
  | or left right => do
    if ← left.evaluateM leaf then pure true else right.evaluateM leaf

/-- The truth value of an expression, given the truth values of its patterns. -/
def evaluate (holds : String → Bool) (e : Expr) : Bool :=
  Id.run (e.evaluateM fun text => pure (holds text))

@[simp] theorem evaluate_literal (holds : String → Bool) (value : Bool) :
    (literal value).evaluate holds = value := rfl

@[simp] theorem evaluate_pattern (holds : String → Bool) (text : String) :
    (pattern text).evaluate holds = holds text := rfl

@[simp] theorem evaluate_and (holds : String → Bool) (left right : Expr) :
    (and left right).evaluate holds = (left.evaluate holds && right.evaluate holds) := by
  simp only [evaluate, evaluateM, Id.run_bind]
  cases Id.run (left.evaluateM fun text => pure (holds text)) <;> rfl

@[simp] theorem evaluate_or (holds : String → Bool) (left right : Expr) :
    (or left right).evaluate holds = (left.evaluate holds || right.evaluate holds) := by
  simp only [evaluate, evaluateM, Id.run_bind]
  cases Id.run (left.evaluateM fun text => pure (holds text)) <;> rfl

/-- The patterns that are asked about when `holds` answers, in order. -/
def visited (holds : String → Bool) (e : Expr) : List String :=
  let ask (text : String) : StateM (List String) Bool := do
    modify (· ++ [text])
    return holds text
  ((e.evaluateM ask).run []).2

/-! ### Patterns and canonical text -/

/-- The patterns of an expression in the order of the text, repetitions kept. -/
def patterns : Expr → List String
  | literal _ => []
  | pattern text => [text]
  | and left right => left.patterns ++ right.patterns
  | or left right => left.patterns ++ right.patterns

/-- Whether an operator stands at the root. -/
def isBinary : Expr → Bool
  | literal _ | pattern _ => false
  | and _ _ | or _ _ => true

/-- A text in parentheses, if need be. -/
def grouped (group : Bool) (text : String) : String :=
  if group then "(" ++ text ++ ")" else text

/-- The canonical text: every operand that is itself binary stands in parentheses. -/
def text : Expr → String
  | literal true => "true"
  | literal false => "false"
  | pattern text => text
  | and left right =>
    grouped left.isBinary left.text ++ " && " ++ grouped right.isBinary right.text
  | or left right =>
    grouped left.isBinary left.text ++ " || " ++ grouped right.isBinary right.text

example : (or (and (pattern "a") (pattern "b")) (pattern "c")).text = "(a && b) || c" := by
  decide +kernel

end Expr

end AccessRules
