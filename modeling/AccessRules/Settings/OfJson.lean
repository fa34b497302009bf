import AccessRules.Json.Library

/-!
# Settings from documents

A document sets any of the settings, and those that it does not set have their defaults.
-/

namespace AccessRules.Settings

variable [JsonLibrary]

/-- The settings of a document. -/
def ofJson (text : String) : Except String Settings :=
  ofOverrides <$> JsonLibrary.readOverrides text

end AccessRules.Settings
