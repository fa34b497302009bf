import AccessRules.Json.Library
import AccessRules.Permission

/-!
# Permissions from documents

The document of a permission is its name, as a JSON string without a wrapper, so a permission is
read and written as its name is.
-/

namespace AccessRules.Permission

variable [JsonLibrary]

/-- The permission of a document. -/
def ofJson (text : String) : Except String Permission :=
  mk <$> JsonLibrary.readString text

/-- The document of a permission. -/
def written (p : Permission) : String :=
  JsonLibrary.render p.toJson

end AccessRules.Permission
