import AccessRules.Builtin.Log
import AccessRules.Builtin.Regex
import AccessRules.CommandLine.Help
import AccessRules.Json.Library
import AccessRules.Json.Render
import AccessRules.Settings.Read

/-!
# The built-in libraries

The libraries that the executable is run with, as far as this program needs them. What is proved of
the program is proved for all libraries, or for those that keep their promises; these keep them.
-/

namespace AccessRules.Builtin

/-- The built-in reader of command lines. -/
scoped instance argumentLibrary : ArgumentLibrary CommandLine.declaration where
  Refusal := CommandLine.Refusal
  parse := CommandLine.parse
  missing _ := .missingArgument
  exitCode := CommandLine.Refusal.exitCode
  output := CommandLine.Refusal.output
  complaint? := CommandLine.Refusal.complaint?

/-- The built-in reader and writer of JSON. -/
scoped instance jsonLibrary : JsonLibrary where
  readOverrides text := (Settings.overridesOfDocument text).mapError (·.message text)
  readString text := (Json.textOfDocument text).mapError (·.message text)
  render := Json.render
  renderPretty := Json.renderPretty

end AccessRules.Builtin
