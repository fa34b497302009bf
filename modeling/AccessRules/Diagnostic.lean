import AccessRules.Json
import AccessRules.Regex
import AccessRules.SyntaxError

/-!
# Diagnostics

A decision is a truth value, so what is wrong with an input never reaches the caller as an
error: it is denied and reported.
-/

namespace AccessRules

/-- A report about an input that could not be used. -/
inductive Diagnostic where
  /-- A text that is no expression. -/
  | malformed (text : String) (error : SyntaxError)
  /-- A pattern that has no glob. -/
  | uncompilable (pattern : String) (error : RegexError)
  deriving DecidableEq, Repr

namespace Diagnostic

/-- The message of a report. -/
def message : Diagnostic → String
  | malformed _ error => "invalid permission expression: " ++ error.message
  | uncompilable _ error => "permission pattern could not be compiled: " ++ error.message

/-- The input that a report is about. -/
def subject : Diagnostic → String
  | malformed text _ => text
  | uncompilable pattern _ => pattern

/-- The syntax error that a report is about. -/
def syntaxError? : Diagnostic → Option SyntaxError
  | malformed _ error => some error
  | uncompilable _ _ => none

/-- A report as a document. -/
def toJson (d : Diagnostic) : Json :=
  .object [("message", .string d.message), ("expression", .string d.subject)]

end Diagnostic

end AccessRules
