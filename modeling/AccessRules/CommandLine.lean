import AccessRules.CommandLine.Declaration
import AccessRules.Log.Format

/-!
# The command line

What can be said on the command line: a command with its operand and options, and the options that
may stand before or after the name of the command. This is declared, and a library takes the
arguments apart.

## Main definitions

* `declaration`: the options and commands of the program
* `Command`, `Invocation`: what a command line says
* `Invocation.ofArguments`: what these arguments say
-/

namespace AccessRules.CommandLine

/-- The name of the program. -/
def programName : String := "permgate"

/-- The names of commands. -/
inductive Verb where
  /-- Decide an expression. -/
  | check
  /-- Tell whether a text is an expression. -/
  | validate
  /-- List the granted names that a pattern matches. -/
  | list
  /-- Explain how an expression is decided. -/
  | explain
  deriving DecidableEq, Repr

namespace Verb

/-- All commands. -/
def all : List Verb :=
  [check, validate, list, explain]

/-- The word for a command. -/
def name : Verb → String
  | check => "check"
  | validate => "validate"
  | list => "matches"
  | explain => "explain"

/-- The command of a word. -/
def ofName? (word : String) : Option Verb :=
  all.find? fun verb => verb.name == word

/-- Whether a command decides against granted names. -/
def takesGrants : Verb → Bool
  | validate => false
  | check | list | explain => true

end Verb

/-- The options that take a value. -/
inductive Opt where
  /-- The file with the settings. -/
  | config
  /-- The log format. -/
  | logFormat
  /-- Granted names. -/
  | grant
  deriving DecidableEq, Repr

/-- The command line of the program. -/
def declaration : Declaration Opt Verb where
  flags
    | .config => ["--config"]
    | .logFormat => ["--log-format"]
    | .grant => ["-g", "--grant"]
  arity
    | .config => .one none
    | .logFormat => .one (some "json")
    | .grant => .many ','
  accepts
    | .config, path => path != ""
    | .logFormat, name => (Log.Format.ofName? name).isSome
    | .grant, _ => true
  isGlobal
    | .config | .logFormat => true
    | .grant => false
  name := Verb.name
  takes
    | verb, .grant => verb.takesGrants
    | _, .config | _, .logFormat => false

theorem accepts_logFormat (name : String) :
    declaration.accepts .logFormat name = (Log.Format.ofName? name).isSome := by
  rw [declaration]

/-- A command: a verb, the text that it is about, and the granted names. -/
structure Command where
  verb : Verb
  operand : String
  granted : List String
  deriving DecidableEq, Repr

/-- A command and how to run it. -/
structure Invocation where
  /-- The file with the settings; without one, they come from the environment. -/
  config : Option String
  logFormat : Log.Format
  command : Command
  deriving DecidableEq, Repr

/-- What these arguments say, or why they are not run. -/
def Invocation.ofArguments [library : ArgumentLibrary declaration] (args : List String) :
    Except library.Refusal Invocation := do
  let said ← library.parse args
  match (said.values .logFormat).head?.bind Log.Format.ofName? with
  | none => throw (library.missing .logFormat)
  | some logFormat =>
    return ⟨(said.values .config).head?, logFormat,
      ⟨said.command, said.operand, said.values .grant⟩⟩

end AccessRules.CommandLine
