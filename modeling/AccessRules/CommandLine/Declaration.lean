/-!
# Declarations of command lines

A program declares the options and the commands that it has, and a library takes command lines apart
as they are declared. A command has one operand, and its options take one value each.

## Main definitions

* `Declaration`: what a program declares about its command line
* `Matches`: what a library makes of a command line
* `ArgumentLibrary`: what is asked of a library, for the command line that a program declares
-/

namespace AccessRules

namespace CommandLine

/-- How often an option may be given. -/
inductive Arity where
  /-- Once at most. Where it is not given, there may be a default. -/
  | one (default? : Option String)
  /-- Any number of times. Values are cut at a character, and all pieces are kept. -/
  | many (delimiter : Char)
  deriving DecidableEq, Repr

/-- What a program declares about its command line. -/
structure Declaration (Opt Cmd : Type) where
  /-- The arguments that an option starts with, with its value as the next argument. -/
  flags : Opt → List String
  arity : Opt → Arity
  /-- Whether an option takes this value. -/
  accepts : Opt → String → Bool
  /-- Whether an option may stand before the name of a command, and behind that of any. -/
  isGlobal : Opt → Bool
  /-- The word for a command. -/
  name : Cmd → String
  /-- Whether an option is one of this command. -/
  takes : Cmd → Opt → Bool

/-- What a command line says: a command with its operand, and the values of all options. -/
structure Matches (Opt Cmd : Type) where
  command : Cmd
  operand : String
  values : Opt → List String

end CommandLine

open CommandLine

/-- What a library offers that takes apart the command lines which a program declares. -/
class ArgumentLibrary {Opt Cmd : Type} (declaration : Declaration Opt Cmd) where
  /-- Why a command line is not run. -/
  Refusal : Type
  /-- Take a command line apart. -/
  parse : List String → Except Refusal (Matches Opt Cmd)
  /-- What is said about a command line that gives an option no value although one is needed. -/
  missing : Opt → Refusal
  /-- The status with which a refused command line ends. -/
  exitCode : Refusal → Nat
  /-- What is written to standard output about a refused command line. -/
  output : Refusal → String
  /-- What is said about a command line that is wrong. -/
  complaint? : Refusal → Option String

end AccessRules
