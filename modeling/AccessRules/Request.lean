import AccessRules.Engine

/-!
# Requests

Everything that an engine can be asked, as data, so that a session is a list of requests. Whoever
asks names the granted permissions with each request; the settings and the cache are the engine's.

## Main definitions

* `Request`, `Reply`: what is asked and what is answered
* `Request.check`: the check that answers a request
* `Engine.answer`: one request served, and the engine that serves the next one
* `Engine.serve`: a session, from its first request to its last
-/

namespace AccessRules

/-- What an engine can be asked. -/
inductive Request where
  /-- Decide a text. -/
  | decide (text : String)
  /-- Decide an expression. -/
  | evaluate (e : Expr)
  /-- Tell whether a text spells an expression. -/
  | validate (text : String)
  /-- Find the expression that a text spells. -/
  | parse (text : String)
  /-- Decide one pattern. -/
  | matchPattern (pattern : String)
  /-- List the granted names that a pattern matches. -/
  | list (pattern : String)
  /-- Tell whether at least one of the texts holds. -/
  | hasAny (texts : List String)
  /-- Tell whether all of the texts hold. -/
  | hasAll (texts : List String)
  /-- Explain how a text is decided. -/
  | explain (text : String)
  /-- Compile a pattern. -/
  | compile (pattern : String)
  /-- Forget the compiled globs. -/
  | forget
  deriving DecidableEq, Repr

/-- What an engine answers. -/
inductive Reply [RegexLibrary] where
  /-- A decision. -/
  | truth (value : Bool)
  /-- Granted names. -/
  | names (names : List String)
  /-- The expression that a text spells. -/
  | parsed (result : Except SyntaxError Expr)
  /-- An explanation. -/
  | explained (explanation : Explanation)
  /-- The glob of a pattern. -/
  | compiled (result : Except RegexError CompiledGlob)
  /-- There is nothing to say. -/
  | done

/-- The check that answers a request against the granted names. -/
def Request.check [RegexLibrary] (granted : List String) (request : Request) (settings : Settings) :
    Checking Reply :=
  match request with
  | decide text => .truth <$> Decision.evaluateText settings granted text
  | evaluate e => .truth <$> Decision.evaluate granted e
  | validate text => pure (.truth (Decision.isValid settings text))
  | parse text => pure (.parsed (Expr.ofText settings text))
  | matchPattern pattern => .truth <$> Decision.matchesPattern granted pattern
  | list pattern => .names <$> Decision.matchingPermissions granted pattern
  | hasAny texts => .truth <$> Decision.hasAny settings granted texts
  | hasAll texts => .truth <$> Decision.hasAll settings granted texts
  | explain text => .explained <$> Explanation.ofText settings granted text
  | compile pattern => .compiled <$> Checking.compiled pattern
  | forget => (fun _ => .done) <$> Checking.forget

/-- A request and the granted names that it is asked with. -/
structure Query where
  granted : List String
  request : Request
  deriving DecidableEq, Repr

namespace Engine

variable [RegexLibrary]

/-- Answer a request: the reply with its notices, and the engine afterwards. -/
def answer (engine : Engine) (granted : List String) (request : Request) :
    Checked Reply × Engine :=
  engine.run (request.check granted)

/-- An engine keeps its settings. -/
@[simp] theorem settings_answer (engine : Engine) (granted : List String) (request : Request) :
    (engine.answer granted request).2.settings = engine.settings := rfl

/-- Answer one query after the other, each with the engine that the one before has left. -/
def serve (engine : Engine) : List Query → List (Checked Reply) × Engine
  | [] => ([], engine)
  | query :: queries =>
    let (outcome, engine) := engine.answer query.granted query.request
    let (outcomes, engine) := engine.serve queries
    (outcome :: outcomes, engine)

end Engine

end AccessRules
