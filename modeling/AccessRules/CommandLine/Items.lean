import AccessRules.CommandLine.Declaration
import Mathlib.Logic.Function.Basic

/-!
# Items of a command line

A command line is written here as a list of items: the operand, and options with their values as the
next arguments. A library that keeps its promises reads it option by option.

## Main definitions

* `Item`, `Declaration.commandLine`: items, and the command line that they make up
* `Matches.store`: what a command line says with one more value for an option
* `Declaration.Admits`: the items are as declared, and say one operand
* `ArgumentLibrary.Documented`: what a library promises about such command lines
-/

namespace AccessRules

namespace CommandLine

/-- What a command line is made of, besides the name of the command. -/
inductive Item (Opt : Type) where
  /-- The text that a command is about. -/
  | operand (text : String)
  /-- An option: the argument that starts it, and its value as the next argument. -/
  | option (opt : Opt) (flag value : String)
  deriving DecidableEq, Repr

/-- A text that does not start with a dash. -/
def Dashless (text : String) : Prop :=
  text.toList.head? ≠ some '-'

instance (text : String) : Decidable (Dashless text) :=
  inferInstanceAs (Decidable (_ ≠ _))

/-- The pieces of a value that is cut at a character; pieces may be empty. -/
def pieces (delimiter : Char) (value : String) : List String :=
  (value.toList.splitOn delimiter).map String.ofList

namespace Arity

/-- Whether an option may be given once only. -/
def isOne : Arity → Bool
  | one _ => true
  | many _ => false

/-- The values of an option that is not given. -/
def defaults : Arity → List String
  | one default? => default?.toList
  | many _ => []

/-- The values of an option that is given once more. -/
def store (value : String) (values : List String) : Arity → List String
  | one _ => [value]
  | many delimiter => values ++ pieces delimiter value

end Arity

variable {Opt Cmd : Type}

/-- What a command line says with one more value for an option. -/
def Matches.store [DecidableEq Opt] (declaration : Declaration Opt Cmd)
    (said : Matches Opt Cmd) (opt : Opt) (value : String) : Matches Opt Cmd :=
  { said with
    values := Function.update said.values opt
      ((declaration.arity opt).store value (said.values opt)) }

namespace Item

/-- The arguments of an item. -/
def args : Item Opt → List String
  | operand text => [text]
  | option _ flag value => [flag, value]

/-- What is asked of the texts in an item. -/
def Valid (declaration : Declaration Opt Cmd) : Item Opt → Prop
  | operand text => Dashless text
  | option opt flag value =>
    flag ∈ declaration.flags opt ∧ Dashless value ∧ declaration.accepts opt value = true

instance (declaration : Declaration Opt Cmd) (item : Item Opt) :
    Decidable (item.Valid declaration) :=
  match item with
  | operand _ => inferInstanceAs (Decidable (Dashless _))
  | option _ _ _ => inferInstanceAs (Decidable (_ ∧ _))

/-- Whether an item may stand before the name of a command. -/
def isGlobal (declaration : Declaration Opt Cmd) : Item Opt → Bool
  | operand _ => false
  | option opt _ _ => declaration.isGlobal opt

/-- Whether an item may stand behind the name of a command. -/
def isAllowed (declaration : Declaration Opt Cmd) (command : Cmd) : Item Opt → Bool
  | operand _ => true
  | option opt _ _ => declaration.isGlobal opt || declaration.takes command opt

/-- The operand that an item says. -/
def operand? : Item Opt → Option String
  | operand text => some text
  | option _ _ _ => none

/-- The value that an item says for an option. -/
def value? [DecidableEq Opt] (opt : Opt) : Item Opt → Option String
  | operand _ => none
  | option opt' _ value => if opt' = opt then some value else none

end Item

/-- The values that items say for an option. -/
def valuesOf [DecidableEq Opt] (opt : Opt) (items : List (Item Opt)) : List String :=
  items.filterMap (Item.value? opt)

namespace Declaration

/-- The arguments for a command, with items before and after its name. -/
def commandLine (declaration : Declaration Opt Cmd) (command : Cmd)
    (before after : List (Item Opt)) : List String :=
  before.flatMap Item.args ++ declaration.name command :: after.flatMap Item.args

/-- The values of all options where no option is given. -/
def defaults (declaration : Declaration Opt Cmd) (opt : Opt) : List String :=
  (declaration.arity opt).defaults

/-- Items before and after the name of a command are as declared. There is one operand, and no
option is given more often than it may be. -/
structure Admits [DecidableEq Opt] (declaration : Declaration Opt Cmd) (command : Cmd)
    (before after : List (Item Opt)) (operand : String) : Prop where
  valid : ∀ item ∈ before ++ after, item.Valid declaration
  global : ∀ item ∈ before, item.isGlobal declaration = true
  allowed : ∀ item ∈ after, item.isAllowed declaration command = true
  operand : after.filterMap Item.operand? = [operand]
  once : ∀ opt, (declaration.arity opt).isOne = true → (valuesOf opt (before ++ after)).length ≤ 1

end Declaration

end CommandLine

open CommandLine

/-- What a library promises about the command lines that a program declares. -/
structure ArgumentLibrary.Documented {Opt Cmd : Type} [DecidableEq Opt]
    (declaration : Declaration Opt Cmd) [library : ArgumentLibrary declaration] : Prop where
  /-- With nothing but an operand, a command has its operand, and the options have their
  defaults. -/
  operand {command : Cmd} {text : String} (h : Dashless text) :
    library.parse (declaration.commandLine command [] [.operand text]) =
      .ok ⟨command, text, declaration.defaults⟩
  /-- The last option stores its value, whether the operand stands before it or behind it. -/
  option {command : Cmd} {front back : List (Item Opt)} {opt : Opt} {flag value text : String}
    {m : Matches Opt Cmd}
    (h : declaration.Admits command [] (front ++ .option opt flag value :: back) text)
    (hlast : ∀ item ∈ back, item.operand?.isSome = true)
    (hparse : library.parse (declaration.commandLine command [] (front ++ back)) = .ok m) :
    library.parse (declaration.commandLine command [] (front ++ .option opt flag value :: back)) =
      .ok (m.store declaration opt value)
  /-- A global option may stand before the name of a command as well as behind it. -/
  global {command : Cmd} {before after : List (Item Opt)} {opt : Opt} {flag value text : String}
    (h : declaration.Admits command (before ++ [.option opt flag value]) after text) :
    library.parse (declaration.commandLine command (before ++ [.option opt flag value]) after) =
      library.parse (declaration.commandLine command before (.option opt flag value :: after))

end AccessRules
