import AccessRules.Json

/-!
# Settings

The tunables of an engine. A setting is a count below `2 ^ 64`. The two limits decide which texts
are refused for their size, and the capacity how many compiled globs are kept.

## Main definitions

* `Setting`: the names of the settings, in documents and in the environment, and their defaults
* `Settings`: a value for each
* `Overrides`: values for some, from which `Settings.ofOverrides` makes settings
-/

namespace AccessRules

/-- The settings of an engine. -/
inductive Setting where
  /-- How many compiled globs are kept; with 0 none is. -/
  | cacheCapacity
  /-- How many bytes an expression may take. -/
  | maxLength
  /-- How many groups may be open at once. -/
  | maxNesting
  deriving DecidableEq, Repr

namespace Setting

/-- All settings, in the order in which they are written. -/
def all : List Setting :=
  [cacheCapacity, maxLength, maxNesting]

/-- The name of a setting in a document. -/
def key : Setting → String
  | cacheCapacity => "pattern_cache_capacity"
  | maxLength => "max_expression_len"
  | maxNesting => "max_nesting_depth"

/-- The environment variable of a setting. -/
def variableName : Setting → String
  | cacheCapacity => "PERMGATE_PATTERN_CACHE_CAPACITY"
  | maxLength => "PERMGATE_MAX_EXPRESSION_LEN"
  | maxNesting => "PERMGATE_MAX_NESTING_DEPTH"

/-- The value of a setting that is not set. -/
def default : Setting → UInt64
  | cacheCapacity => 256
  | maxLength => 4096
  | maxNesting => 64

/-- The setting with this name in a document. -/
def ofKey? (key : String) : Option Setting :=
  all.find? fun setting => setting.key == key

theorem mem_all (setting : Setting) : setting ∈ all := by
  cases setting <;> decide

@[simp] theorem ofKey?_key (setting : Setting) : ofKey? setting.key = some setting := by
  cases setting <;> decide +kernel

end Setting

/-- A value for each setting. -/
@[ext] structure Settings where
  cacheCapacity : UInt64
  maxLength : UInt64
  maxNesting : UInt64
  deriving DecidableEq, Repr

/-- Values for some of the settings. -/
def Overrides : Type :=
  Setting → Option UInt64

/-- No values. -/
def Overrides.none : Overrides :=
  fun _ => .none

/-- One more value. -/
def Overrides.set (o : Overrides) (setting : Setting) (value : UInt64) : Overrides :=
  fun s => if s = setting then some value else o s

namespace Settings

/-- The value of a setting. -/
def get (s : Settings) : Setting → UInt64
  | .cacheCapacity => s.cacheCapacity
  | .maxLength => s.maxLength
  | .maxNesting => s.maxNesting

/-- The settings with these values. -/
def ofValues (value : Setting → UInt64) : Settings :=
  ⟨value .cacheCapacity, value .maxLength, value .maxNesting⟩

/-- The settings that have these values where there is one, and the default elsewhere. -/
def ofOverrides (o : Overrides) : Settings :=
  ofValues fun setting => (o setting).getD setting.default

/-- The settings that hold where nothing is set. -/
def defaults : Settings :=
  ofValues Setting.default

@[simp] theorem get_ofValues (value : Setting → UInt64) (setting : Setting) :
    (ofValues value).get setting = value setting := by
  cases setting <;> rfl

@[simp] theorem ofValues_get (s : Settings) : ofValues s.get = s := rfl

/-- The settings by name, on one line. -/
def summary (s : Settings) : String :=
  let item (setting : Setting) : String :=
    setting.key ++ ": " ++ toString (s.get setting).toNat
  "EngineConfig \x7b " ++ ", ".intercalate (Setting.all.map item) ++ " \x7d"

/-- The settings as a document. -/
def toJson (s : Settings) : Json :=
  .object (Setting.all.map fun setting => (setting.key, .number (s.get setting).toNat))

end Settings

end AccessRules
