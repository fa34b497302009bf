import AccessRules.CommandLine.Parse

/-!
# Help and complaints

The texts that answer a command line that is not run: the help that was asked for, or what is wrong.
-/

namespace AccessRules.CommandLine

/-- The name and the version of the program. -/
def versionText : String := programName ++ " 0.1.0\n"

namespace Verb

/-- What a command does, in one line. -/
def about : Verb → String
  | check => "Decide an expression; exits 0 when granted, 1 when denied"
  | validate => "Check expression syntax only; exits 0 when valid, 1 when not"
  | list => "List granted permissions matched by a single pattern"
  | explain => "Print a JSON explanation of the decision"

/-- The operand of a command: its name, and what it is. -/
def operand : Verb → String × String
  | check => ("EXPRESSION",
      "Permission expression, e.g. \"(admin.* || moderator.*) && active.user\"")
  | validate => ("EXPRESSION", "Permission expression to validate")
  | list => ("PATTERN", "Exact permission or glob (\x60*\x60, \x60?\x60)")
  | explain => ("EXPRESSION", "Permission expression to explain")

end Verb

/-- A text filled up with blanks to a width. -/
def padTo (width : Nat) (s : String) : String :=
  s ++ String.ofList (List.replicate (width - s.length) ' ')

/-- The lines of options of a level. -/
def optionLines (topic : Option Verb) : List String :=
  let entry (flags about : String) : String := "  " ++ padTo 27 flags ++ about
  [entry "    --config <CONFIG>"
      "Engine settings as JSON (defaults come from PERMGATE_* variables)"] ++
    (if topic.any Verb.takesGrants then
      [entry "-g, --grant <PERMISSIONS>" "Granted permission (repeatable, or comma-separated)"]
    else []) ++
    [entry "    --log-format <LOG_FORMAT>"
        "Log output format on stderr (json, compact) [default: json]",
      entry "-h, --help" "Print help"] ++
    (if topic.isNone then [entry "-V, --version" "Print version"] else [])

/-- The help about a command, or about all. -/
def helpText (topic : Option Verb) : String :=
  let lines :=
    match topic with
    | some verb =>
      let (name, about) := verb.operand
      [verb.about, "",
        "Usage: " ++ programName ++ " " ++ verb.name ++ " [OPTIONS] <" ++ name ++ ">", "",
        "Arguments:", "  <" ++ name ++ ">  " ++ about, "", "Options:"]
    | none =>
      ["Evaluate permission expressions against granted permissions.", "",
        "Usage: " ++ programName ++ " [OPTIONS] <COMMAND>", "", "Commands:"] ++
        Verb.all.map (fun verb => "  " ++ padTo 10 verb.name ++ verb.about) ++
        ["  " ++ padTo 10 "help" ++ "Print this message or the help of the given subcommand(s)", "",
          "Options:"]
  String.join ((lines ++ optionLines topic).map (· ++ "\n"))

namespace Refusal

/-- What is written to standard output. -/
def output : Refusal → String
  | help topic => helpText topic
  | version => versionText
  | _ => ""

/-- What is said about a command line that is wrong. -/
def complaint? : Refusal → Option String
  | help _ | version => none
  | nothingSaid => some (helpText none)
  | missingCommand => some "error: a command is required\n"
  | unknownCommand => some "error: unrecognized command\n"
  | unknownArgument => some "error: unexpected argument\n"
  | missingArgument => some "error: a required argument was not provided\n"
  | missingValue => some "error: an option needs a value\n"
  | invalidValue => some "error: invalid value for an option\n"
  | unneededValue => some "error: an option takes no value\n"
  | repeatedOption => some "error: an option cannot be used multiple times\n"

end Refusal

end AccessRules.CommandLine
