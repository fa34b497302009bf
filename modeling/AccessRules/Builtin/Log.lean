import AccessRules.Json.Render
import AccessRules.Log
import AccessRules.Text.Fields

/-!
# A built-in library for log events

A filter is a list of directives, written with commas between them: a level for all events, a level
for the events whose target starts with some text, as in `target=level`, or a target alone, for all
its events. Of the directives that fit an event, the one with the longest target decides.
-/

namespace AccessRules.Builtin

open Log (Level Event Format)

/-! ### Levels -/

/-- The place of a level in the order of urgency. -/
def rank : Level → Nat
  | .error => 1
  | .warn => 2
  | .info => 3
  | .debug => 4
  | .trace => 5

/-- How many levels are let through up to the one of a name, which is a word in any case or a
digit. -/
def rankOf? (text : String) : Option Nat :=
  let levels := [Level.error, .warn, .info, .debug, .trace]
  let named := ("off", 0) :: levels.map fun level => (Text.lower level.name, rank level)
  let numbered := (List.range 6).map fun n => (toString n, n)
  (named ++ numbered).lookup (Text.lower text)

/-! ### Filters -/

/-- The most verbose level that is let through for targets that start with `target`. -/
structure Directive where
  target : String
  rank : Nat
  deriving DecidableEq, Repr

/-- The directive of a text. -/
def directive? (text : String) : Option Directive :=
  match rankOf? text with
  | some rank => some ⟨"", rank⟩
  | none =>
    let cs := text.toList
    let target := String.ofList (cs.takeWhile (· != '='))
    match (cs.dropWhile (· != '=')).tail? with
    | none => some ⟨target, rank .trace⟩
    | some level => (rankOf? (String.ofList level)).map (⟨target, ·⟩)

/-- The texts between the commas of a text, the empty ones left out. -/
def directiveTexts (text : String) : List String :=
  (Text.fields ',' text).filter (· != "")

/-- Where there is no directive, errors are let through. -/
def orErrors (directives : List Directive) : List Directive :=
  if directives.isEmpty then [⟨"", rank .error⟩] else directives

/-- Whether an event is let through. -/
def admits (directives : List Directive) (event : Event) : Bool :=
  let fitting := directives.filter fun d => d.target.toList.isPrefixOf event.target.toList
  let decisive? := fitting.foldl (fun best? d =>
    match best? with
    | none => some d
    | some best => if best.target.length ≤ d.target.length then some d else some best) none
  decisive?.any fun d => rank event.level ≤ d.rank

/-! ### Lines -/

/-- An event as a document. -/
def eventJson (e : Event) : Json :=
  .object [("level", .string e.level.name),
    ("fields", .object (("message", .string e.message) :: e.values))]

/-- The line of an event. -/
def eventLine (format : Format) (e : Event) : String :=
  match format with
  | .json => (eventJson e).render
  | .compact =>
    let value (item : String × Json) : String := " " ++ item.1 ++ "=" ++ item.2.render
    e.level.name ++ " " ++ e.message ++ String.join (e.values.map value)

/-- The library that the executable is run with. -/
scoped instance logLibrary : LogLibrary where
  Filter := List Directive
  ofVariable? value := do
    let text ← value
    orErrors <$> (directiveTexts text).mapM directive?
  ofText text := orErrors ((directiveTexts text).filterMap directive?)
  admits := admits
  line := eventLine

end AccessRules.Builtin
