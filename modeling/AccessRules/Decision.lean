import AccessRules.Checking
import AccessRules.Expr.OfText
import AccessRules.Permission

/-!
# Decisions

Patterns, expressions and lists of expressions are decided against a list of granted names that
the caller supplies. What cannot be read is denied.

## Main definitions

* `Decision.matchesPattern`, `Decision.matchingPermissions`: one pattern
* `Decision.evaluate`, `Decision.evaluateText`: an expression, and a text that spells one
* `Decision.hasAny`, `Decision.hasAll`: several texts
-/

namespace AccessRules.Decision

/-- What a pattern stands for without looking at any name. -/
inductive Shortcut where
  /-- A truth value. -/
  | literal (value : Bool)
  /-- The universal wildcard. -/
  | universal
  deriving DecidableEq, Repr

/-- The shortcut that a pattern is. -/
def shortcut? (pattern : String) : Option Shortcut :=
  match literal? pattern with
  | some value => some (.literal value)
  | none => if isWildcard pattern then some .universal else none

variable [RegexLibrary]

/-- Decide one pattern. The universal wildcard holds even where nothing is granted; every other
pattern has to match a granted name. -/
def matchesPattern (granted : List String) (pattern : String) : Checking Bool :=
  let trimmed := Text.trim pattern
  match shortcut? trimmed with
  | some (.literal value) => pure value
  | some .universal => pure true
  | none => return (← Checking.glob? trimmed).any (·.matchesAny granted)

/-- The granted names that a pattern matches as a glob, in their order. Here truth values are
names like any other, and the universal wildcard matches what is granted. -/
def matchingPermissions (granted : List String) (pattern : String) : Checking (List String) :=
  return (← Checking.glob? (Text.trim pattern)).elim [] (·.filter granted)

/-- Decide an expression. -/
def evaluate (granted : List String) (e : Expr) : Checking Bool :=
  e.evaluateM (matchesPattern granted)

/-- Decide a text. A truth value decides itself, and any other text is decided as the
expression that it spells. -/
def evaluateText (settings : Settings) (granted : List String) (text : String) :
    Checking Bool :=
  match literal? text with
  | some value => pure value
  | none =>
    match Expr.ofText settings text with
    | .error e => do
      Checking.notify (.report (.malformed text e))
      return false
    | .ok e => do
      let allowed ← evaluate granted e
      Checking.notify (.decided text allowed)
      return allowed

/-- Whether a text spells an expression. Nothing is matched. -/
def isValid (settings : Settings) (text : String) : Bool :=
  (Expr.ofText settings text).isOk

/-- Whether at least one of the texts holds. They are decided in order, until one holds. -/
def hasAny (settings : Settings) (granted : List String) (texts : List String) :
    Checking Bool :=
  texts.anyM (evaluateText settings granted)

/-- Whether all of the texts hold. They are decided in order, until one does not hold. -/
def hasAll (settings : Settings) (granted : List String) (texts : List String) :
    Checking Bool :=
  texts.allM (evaluateText settings granted)

end AccessRules.Decision
