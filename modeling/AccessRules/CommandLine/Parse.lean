import AccessRules.CommandLine
import AccessRules.Text.Fields

/-!
# A built-in reader of command lines

Arguments are read from left to right on two levels: first the options before the command, then,
after its name, its operand and options. `--` ends the options of a level.

An option that takes a value may have it attached, as in `--grant=a`, `-ga` or `-g=a`, or as
the next argument. The latter is settled only when the next option, the operand or the end of the
level comes, so that an unknown argument is found before a bad value in front of it. In the same
way the options before a command are settled after the command has been read.

## Main definitions

* `shapeOf`: what an argument looks like
* `Said`, `Pending`: what has been said on a level, and an option that is not settled yet
* `parse`: what a command line says, or why it is not run
-/

namespace AccessRules.CommandLine

/-! ### Refusals -/

/-- Why a command line is not run. -/
inductive Refusal where
  /-- The help about a command, or about all, was asked for. -/
  | help (topic : Option Verb)
  /-- The version was asked for. -/
  | version
  /-- Nothing was said at all, which is answered with the help. -/
  | nothingSaid
  /-- There are options and no command. -/
  | missingCommand
  /-- A word stands where a command has to. -/
  | unknownCommand
  /-- An option is not known, or there is an operand too many. -/
  | unknownArgument
  /-- A command has no operand, or something else that is needed is not given. -/
  | missingArgument
  /-- An option that needs a value has none. -/
  | missingValue
  /-- The value of an option cannot be read. -/
  | invalidValue
  /-- An option that takes no value has one. -/
  | unneededValue
  /-- An option that may stand once stands twice. -/
  | repeatedOption
  deriving DecidableEq, Repr

/-- The status with which a refused command line ends. -/
def Refusal.exitCode : Refusal → Nat
  | help _ | version => 0
  | _ => 2

/-! ### Options -/

/-- The options. -/
inductive Switch where
  | config
  | logFormat
  | grant
  | help
  | version
  deriving DecidableEq, Repr

namespace Switch

/-- Whether an option takes a value. -/
def takesValue : Switch → Bool
  | config | logFormat | grant => true
  | help | version => false

/-- Where an option may stand: before the command, or after the name of a command. -/
def isAllowed (level : Option Verb) : Switch → Bool
  | config | logFormat | help => true
  | version => level.isNone
  | grant => level.any Verb.takesGrants

/-- The option of a name that follows two dashes. -/
def ofName? (level : Option Verb) (name : List Char) : Option Switch :=
  let switch : Option Switch :=
    if name = "config".toList then some config
    else if name = "log-format".toList then some logFormat
    else if name = "grant".toList then some grant
    else if name = "help".toList then some help
    else if name = "version".toList then some version
    else none
  switch.filter (isAllowed level)

/-- The option of a letter that follows one dash. -/
def ofLetter? (level : Option Verb) (letter : Char) : Option Switch :=
  let switch : Option Switch :=
    if letter = 'g' then some grant
    else if letter = 'h' then some help
    else if letter = 'V' then some version
    else none
  switch.filter (isAllowed level)

end Switch

/-! ### Arguments -/

/-- What an argument looks like. -/
inductive Shape where
  /-- The argument `--`, which ends the options. -/
  | endOfOptions
  /-- A name after two dashes, and the value after its first equals sign. -/
  | named (name : List Char) (value : Option (List Char))
  /-- A letter after one dash, and what follows the letter. -/
  | lettered (letter : Char) (rest : List Char)
  /-- Any other argument; a single dash is one. -/
  | plain
  deriving DecidableEq, Repr

/-- A name and the value after the first equals sign. -/
def splitValue (cs : List Char) : List Char × Option (List Char) :=
  (cs.takeWhile (· != '='), (cs.dropWhile (· != '=')).tail?)

/-- What the characters of an argument look like. -/
def shapeOf : List Char → Shape
  | ['-', '-'] => .endOfOptions
  | '-' :: '-' :: cs =>
    let (name, value) := splitValue cs
    .named name value
  | '-' :: letter :: rest => .lettered letter rest
  | _ => .plain

/-- The value attached to a lettered option; an equals sign before it is dropped. -/
def attached? : List Char → Option (List Char)
  | [] => none
  | '=' :: cs => some cs
  | cs => some cs

/-! ### Settling options -/

/-- What has been said on a level. -/
structure Said where
  config : Option String
  logFormat : Option String
  granted : List String
  operand : Option String
  deriving DecidableEq, Repr

/-- Nothing has been said. -/
def Said.nothing : Said :=
  ⟨none, none, [], none⟩

/-- An option that is not settled yet, with its value if that has come. -/
structure Pending where
  switch : Switch
  value : Option String
  deriving DecidableEq, Repr

/-- Whether the next argument may be the value of a pending option. -/
def awaitsValue : Option Pending → Bool
  | some ⟨_, none⟩ => true
  | _ => false

/-- Take an option with its value into account. -/
def Said.add (said : Said) (switch : Switch) (value : String) : Except Refusal Said :=
  match switch with
  | .config =>
    if said.config.isSome then .error .repeatedOption
    else if value = "" then .error .missingValue
    else .ok { said with config := some value }
  | .logFormat =>
    if said.logFormat.isSome then .error .repeatedOption
    else if (Log.Format.ofName? value).isNone then .error .invalidValue
    else .ok { said with logFormat := some value }
  | .grant => .ok { said with granted := said.granted ++ Text.fields ',' value }
  | .help | .version => .ok said

/-- Settle the pending option. -/
def Said.settle (said : Said) : Option Pending → Except Refusal Said
  | none => .ok said
  | some ⟨_, none⟩ => .error .missingValue
  | some ⟨switch, some value⟩ => said.add switch value

/-! ### Reading a level -/

/-- What is known when a level has been read: what was said, the option that is still pending,
and the command with the arguments after its name. -/
structure LevelResult where
  said : Said
  pending : Option Pending
  command : Option (Verb × List String)

/-- The answer to an option that takes no value. -/
def answerTo (level : Option Verb) : Switch → Refusal
  | .version => .version
  | _ => .help level

/-- The help about the words after `help`. -/
def helpAbout : List String → Refusal
  | [] => .help none
  | [word] =>
    match Verb.ofName? word with
    | some verb => .help (some verb)
    | none => if word = "help" then .help none else .unknownCommand
  | _ => .unknownCommand

/-- Read an option: the state after it, or what is wrong with it. -/
def readSwitch (level : Option Verb) (said : Said) (pending : Option Pending) (switch : Switch)
    (value : Option (List Char)) (flagValue : Bool) :
    Except Refusal (Said × Option Pending) :=
  if switch.takesValue then do
    let said ← said.settle pending
    match value with
    | some value => do
      let said ← said.add switch (String.ofList value)
      return (said, none)
    | none => return (said, some ⟨switch, none⟩)
  else if flagValue then .error .unneededValue
  else do
    let _ ← said.settle pending
    .error (answerTo level switch)

/-- Read an argument that is neither an option nor the value of one. -/
def readOperand (level : Option Verb) (said : Said) (pending : Option Pending)
    (arg : String) (isTrailing : Bool) : Except Refusal Said :=
  match level with
  | none =>
    let isCommand := (Verb.ofName? arg).isSome || arg = "help"
    .error (if isTrailing && isCommand then .unknownArgument else .unknownCommand)
  | some _ =>
    if said.operand.isSome then .error .unknownArgument
    else do
      let said ← said.settle pending
      return { said with operand := some arg }

/-- Read the arguments after `--`. -/
def readTrailing (level : Option Verb) (said : Said) (pending : Option Pending) :
    List String → Except Refusal LevelResult
  | [] => .ok ⟨said, pending, none⟩
  | arg :: args => do
    let said ← readOperand level said pending arg true
    readTrailing level said none args

/-- Read the arguments of a level: of the one before the command if `level` is `none`. -/
def readLevel (level : Option Verb) (said : Said) (pending : Option Pending) :
    List String → Except Refusal LevelResult
  | [] => .ok ⟨said, pending, none⟩
  | arg :: args =>
    let isFree := level.isNone && !awaitsValue pending
    if isFree && arg = "help" then .error (helpAbout args)
    else
      match if isFree then Verb.ofName? arg else none with
      | some verb => .ok ⟨said, pending, some (verb, args)⟩
      | none =>
        match shapeOf arg.toList with
        | .endOfOptions => readTrailing level said pending args
        | .named name value =>
          match Switch.ofName? level name with
          | none => .error .unknownArgument
          | some switch => do
            let (said, pending) ← readSwitch level said pending switch value value.isSome
            readLevel level said pending args
        | .lettered letter rest =>
          match Switch.ofLetter? level letter with
          | none => .error .unknownArgument
          | some switch => do
            let (said, pending) ← readSwitch level said pending switch (attached? rest) false
            readLevel level said pending args
        | .plain =>
          match pending with
          | some ⟨switch, none⟩ => readLevel level said (some ⟨switch, some arg⟩) args
          | _ => do
            let said ← readOperand level said pending arg false
            readLevel level said none args

/-- Read what follows the name of a command: what is said there, and the operand. -/
def readCommand (verb : Verb) (args : List String) : Except Refusal (Said × String) := do
  let result ← readLevel (some verb) .nothing none args
  let said ← result.said.settle result.pending
  match said.operand with
  | none => .error .missingArgument
  | some operand => return (said, operand)

/-- The values of the options. Those after the name of a command win over those before it. -/
def Said.values (inner outer : Said) : Opt → List String
  | .config => (inner.config.or outer.config).toList
  | .logFormat => [(inner.logFormat.or outer.logFormat).getD "json"]
  | .grant => inner.granted

/-- Read a command line. -/
def parse (args : List String) : Except Refusal (Matches Opt Verb) := do
  let result ← readLevel none .nothing none args
  match result.command with
  | some (verb, args) => do
    let (inner, operand) ← readCommand verb args
    let outer ← result.said.settle result.pending
    return ⟨verb, operand, inner.values outer⟩
  | none => do
    let said ← result.said.settle result.pending
    if said.config.isNone && said.logFormat.isNone then .error .nothingSaid
    else .error .missingCommand

end AccessRules.CommandLine
