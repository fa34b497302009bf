import AccessRules.CommandLine
import AccessRules.Engine
import AccessRules.Log
import AccessRules.Settings.OfJson
import AccessRules.Settings.OfLookup

/-!
# The program

A command line, the environment and the text of the settings file determine everything that the
program does: what it writes, what it logs and the status with which it ends. `run` is that
function; only reading files and writing is left to the outside. The libraries that read the command
line and the settings file, match patterns, and filter and write the log are parameters.

## Main definitions

* `World`: what a run can see of its surroundings
* `execute`: how the run of a command ends, and every event on the way
* `run`: what the process does, refused command lines included

## Implementation notes

The events of a run are all there, whatever the filter of the log says; `logLines` drops those
that are not let through. So nothing but the log depends on the filter.

How a run ends depends on the libraries in three places only: `ArgumentLibrary.parse` says which
command there is, if any, `JsonLibrary.readOverrides` what a settings file sets, and the engine
matches patterns with the library of regular expressions.
-/

namespace AccessRules.Program

open CommandLine

/-! ### Settings -/

/-- Why a file could not be read. -/
inductive FileFault where
  | missing
  | directory
  | denied
  | other (text : String)
  deriving DecidableEq, Repr

/-- The message of a fault. -/
def FileFault.message : FileFault → String
  | missing => "No such file or directory (os error 2)"
  | directory => "Is a directory (os error 21)"
  | denied => "Permission denied (os error 13)"
  | other text => text

/-- The surroundings of a run: the environment variables and the texts of files. -/
structure World where
  lookup : String → Option String
  file : String → Except FileFault String

/-- Why there are no settings to run with. -/
inductive LoadFault where
  /-- The file at `path` could not be read. -/
  | unreadable (path : String) (fault : FileFault)
  /-- The file at `path` was read, and its text holds no settings, with a message that says why. -/
  | invalid (path message : String)

/-- The message of a fault. -/
def LoadFault.message : LoadFault → String
  | unreadable path fault => "failed to read config file " ++ path ++ ": " ++ fault.message
  | invalid path message => "invalid engine config in " ++ path ++ ": " ++ message

/-- The settings from the file at `path`. -/
def settingsFromFile [JsonLibrary] (world : World) (path : String) : Except LoadFault Settings :=
  match world.file path with
  | .error fault => .error (.unreadable path fault)
  | .ok text =>
    match Settings.ofJson text with
    | .error message => .error (.invalid path message)
    | .ok settings => .ok settings

/-- The settings of a run: from a file if there is one, else from the environment. -/
def loadSettings [JsonLibrary] (world : World) : Option String → Except LoadFault Settings
  | some path => settingsFromFile world path
  | none => .ok (Settings.ofLookup world.lookup)

/-! ### Commands -/

/-- A text with an end of line. -/
def line (text : String) : String :=
  text ++ "\n"

/-- Run a command: whether it succeeds, and what it writes. -/
def runCommand [RegexLibrary] [JsonLibrary] (settings : Settings) (command : Command) :
    Checking (Bool × String) :=
  match command.verb with
  | .check => do
    let allowed ← Decision.evaluateText settings command.granted command.operand
    return (allowed, line (if allowed then "granted" else "denied"))
  | .validate =>
    match Expr.ofText settings command.operand with
    | .ok e => pure (true, line ("valid: " ++ e.text))
    | .error e => pure (false, line ("invalid: " ++ e.message))
  | .list => do
    let matched ← Decision.matchingPermissions command.granted command.operand
    return (!matched.isEmpty, String.join (matched.map line))
  | .explain => do
    let explanation ← Explanation.ofText settings command.granted command.operand
    return (explanation.granted, line (JsonLibrary.renderPretty explanation.toJson))

/-! ### Logging -/

/-- The event of a variable that was ignored. -/
def ignoredEvent (v : IgnoredVariable) : Log.Event :=
  ⟨"permgate_auth::config", .warn, "ignoring invalid engine setting",
    [("key", .string v.setting.variableName), ("value", .string v.text),
      ("default", .string (toString v.setting.default.toNat))]⟩

/-- The event of an engine that is ready. -/
def readyEvent (settings : Settings) : Log.Event :=
  ⟨"permgate::commands", .debug, "engine configured", [("config", .string settings.summary)]⟩

/-- The event of a notice. -/
def noticeEvent : Notice → Log.Event
  | .report diagnostic =>
    ⟨"permgate_auth::diagnostics", .warn, "permission check denied: malformed input",
      [("expression", .string diagnostic.subject), ("error", .string diagnostic.message)]⟩
  | .decided expression allowed =>
    ⟨"permgate_auth::engine", .debug, "permission expression evaluated",
      [("expression", .string expression), ("allowed", .bool allowed)]⟩

/-- The event of a run that failed. -/
def failureEvent (fault : LoadFault) : Log.Event :=
  ⟨programName, .error, programName ++ " failed: " ++ fault.message, []⟩

/-! ### Runs -/

/-- How a run ends. -/
inductive Ending where
  /-- The settings could not be loaded. -/
  | failed (fault : LoadFault)
  /-- The command was run: whether it succeeded, and what it wrote. -/
  | finished (succeeded : Bool) (output : String)

/-- How a run ends, and every event on the way. -/
structure Trace where
  ending : Ending
  events : List Log.Event

/-- Run a command line that was read. -/
def execute [RegexLibrary] [JsonLibrary] (world : World) (invocation : Invocation) : Trace :=
  let ignored := if invocation.config.isSome then [] else Settings.ignored world.lookup
  match loadSettings world invocation.config with
  | .error fault => ⟨.failed fault, [failureEvent fault]⟩
  | .ok settings =>
    let (outcome, _) :=
      (Engine.new settings).run fun settings => runCommand settings invocation.command
    ⟨.finished outcome.value.1 outcome.value.2,
      ignored.map ignoredEvent ++ [readyEvent settings] ++ outcome.notices.map noticeEvent⟩

/-- The status of a run: 0 for success, 1 for a command that does not succeed, 2 for a
failure. -/
def Ending.exitCode : Ending → Nat
  | failed _ => 2
  | finished true _ => 0
  | finished false _ => 1

/-- What a run writes to standard output. -/
def Ending.output : Ending → String
  | failed _ => ""
  | finished _ output => output

/-- What is said about a failure. -/
def Ending.failure? : Ending → Option String
  | failed fault => some fault.message
  | finished _ _ => none

/-- What a process does. -/
structure Effects where
  exitCode : Nat
  /-- What it writes to standard output. -/
  output : String
  /-- The lines of its log. -/
  log : List String
  /-- What it says about a failure. -/
  failure? : Option String
  /-- What it says about a command line that is wrong. -/
  complaint? : Option String
  deriving DecidableEq, Repr

/-- The variable that sets the filter of the log. -/
def filterVariable : String := "RUST_LOG"

/-- What the program does about a command line that is not run. -/
def refuse [library : ArgumentLibrary declaration] (refusal : library.Refusal) : Effects :=
  ⟨library.exitCode refusal, library.output refusal, [], none, library.complaint? refusal⟩

/-- The lines of the events that the environment lets through. -/
def logLines [LogLibrary] (world : World) (format : Log.Format) (events : List Log.Event) :
    List String :=
  let filter := LogLibrary.filterOf (world.lookup filterVariable)
  (events.filter (LogLibrary.admits filter)).map (LogLibrary.line format)

/-- What the program does. -/
def run [RegexLibrary] [ArgumentLibrary declaration] [JsonLibrary] [LogLibrary] (world : World)
    (args : List String) : Effects :=
  match Invocation.ofArguments args with
  | .error refusal => refuse refusal
  | .ok invocation =>
    let trace := execute world invocation
    ⟨trace.ending.exitCode, trace.ending.output,
      logLines world invocation.logFormat trace.events, trace.ending.failure?, none⟩

end AccessRules.Program
