import AccessRules.Builtin
import AccessRules.Program

/-!
# The executable

Looks up the variables and reads the file that a run asks for, and carries out what
`Program.run` says. The libraries are the built-in ones.
-/

namespace AccessRules.Main

open Program Builtin

/-- The text of a file, or why it could not be read. -/
def readFile (path : String) : IO (Except FileFault String) := do
  try
    return .ok (← IO.FS.readFile path)
  catch
    | .noFileOrDirectory _ _ _ => return .error .missing
    | .inappropriateType _ _ _ => return .error .directory
    | .permissionDenied _ _ _ => return .error .denied
    | e => return .error (.other (toString e))

/-- The surroundings of a run with these arguments. -/
def observe (args : List String) : IO World := do
  let names := filterVariable :: Setting.all.map Setting.variableName
  let values ← names.mapM fun name => do return (name, ← IO.getEnv name)
  let path? := (CommandLine.Invocation.ofArguments args).toOption.bind (·.config)
  let content ← path?.mapM readFile
  return ⟨fun name => (values.lookup name).join, fun _ => content.getD (.error .missing)⟩

/-- What the process does with these arguments. -/
def effects (args : List String) : IO Effects := do
  return run (← observe args) args

end AccessRules.Main

def main (args : List String) : IO UInt32 := do
  let effects ← AccessRules.Main.effects args
  for line in effects.log do
    IO.eprintln line
  IO.print effects.output
  if let some complaint := effects.complaint? then
    IO.eprint complaint
  if let some failure := effects.failure? then
    IO.eprintln ("error: " ++ failure)
  return effects.exitCode.toUInt32
