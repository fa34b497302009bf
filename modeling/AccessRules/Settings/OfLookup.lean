import AccessRules.Decimal
import AccessRules.Settings
import AccessRules.Text.Blank

/-!
# Settings from variables

Each setting has an environment variable. One that is not set leaves the default, and so does one
whose text is no count; the latter is reported.
-/

namespace AccessRules

/-- A variable whose text is no count. -/
structure IgnoredVariable where
  setting : Setting
  text : String
  deriving DecidableEq, Repr

namespace Settings

/-- The count that a variable holds, blanks around it ignored. -/
def parse? (text : String) : Option UInt64 :=
  Decimal.count? (Text.trim text).toList

/-- The settings of a lookup of variables. -/
def ofLookup (lookup : String → Option String) : Settings :=
  ofOverrides fun setting => (lookup setting.variableName).bind parse?

/-- The variables that are set and ignored, in the order of the settings. -/
def ignored (lookup : String → Option String) : List IgnoredVariable :=
  Setting.all.filterMap fun setting =>
    match lookup setting.variableName with
    | none => none
    | some text => if (parse? text).isSome then none else some ⟨setting, text⟩

/-- A setting comes from its own variable alone. -/
@[simp] theorem get_ofLookup (lookup : String → Option String) (setting : Setting) :
    (ofLookup lookup).get setting =
      ((lookup setting.variableName).bind parse?).getD setting.default := by
  simp [ofLookup, ofOverrides]

end Settings

end AccessRules
