import AccessRules.Json
import AccessRules.Settings

/-!
# Libraries for JSON

Reading and writing the texts of JSON is not part of this library, so it is a parameter. A library
reads values of settings and texts, each with a message where there is none to be read, and it
writes any document in two ways.
-/

namespace AccessRules

/-- What a library for JSON offers. -/
class JsonLibrary where
  /-- Read the values of any of the settings, by their keys or in their order. -/
  readOverrides : String → Except String Overrides
  /-- Read a text that is written as a JSON string. -/
  readString : String → Except String String
  /-- Write a document without blanks. -/
  render : Json → String
  /-- Write a document with one line for each member and item. -/
  renderPretty : Json → String

end AccessRules
