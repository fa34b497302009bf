import AccessRules.Explanation

/-!
# Engines

An engine holds settings and a cache of compiled globs. It holds no granted names: every check
receives its own, and the cache is all that one check hands on to the next.
-/

namespace AccessRules

/-- Settings and the compiled globs that are kept. -/
structure Engine [RegexLibrary] where
  settings : Settings
  cache : GlobCache

namespace Engine

variable [RegexLibrary]

/-- An engine that has checked nothing yet. -/
def new (settings : Settings) : Engine :=
  ⟨settings, .empty settings.cacheCapacity.toNat⟩

/-- Run a check: its answer and notices, and the engine afterwards. -/
def run {α : Type} (engine : Engine) (check : Settings → Checking α) : Checked α × Engine :=
  let outcome := (check engine.settings).run engine.cache
  (outcome, { engine with cache := outcome.cache })

/-- The settings and the fill of the cache, on one line. -/
def summary (engine : Engine) : String :=
  "PermissionEngine \x7b config: " ++ engine.settings.summary ++ ", cached_patterns: " ++
    toString engine.cache.size ++ ", .. \x7d"

end Engine

end AccessRules
