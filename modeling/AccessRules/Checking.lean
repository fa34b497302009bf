import AccessRules.Diagnostic
import AccessRules.GlobCache

/-!
# Checks

A check is a computation that answers a question about granted permissions. On its way it may
fill the cache of compiled globs and give notice of what it meets. `Checking` makes the order of
these effects part of the check.

## Main statements

* the monad laws, as the instance `LawfulMonad Checking`: running one check after another
  concatenates what they give notice of
-/

namespace AccessRules

/-- What a check gives notice of. -/
inductive Notice where
  /-- An input that could not be used. -/
  | report (diagnostic : Diagnostic)
  /-- The decision about an expression. -/
  | decided (expression : String) (allowed : Bool)
  deriving DecidableEq, Repr

/-- The report that a notice is, if it is one. -/
def Notice.diagnostic? : Notice → Option Diagnostic
  | report diagnostic => some diagnostic
  | decided _ _ => none

/-- The outcome of a check: its answer, the cache that it leaves and its notices in order. -/
@[ext] structure Checked [RegexLibrary] (α : Type) where
  value : α
  cache : GlobCache
  notices : List Notice

/-- The reports among the notices of a check. -/
def Checked.diagnostics [RegexLibrary] {α : Type} (r : Checked α) : List Diagnostic :=
  r.notices.filterMap Notice.diagnostic?

/-- A check with answers in `α`. -/
def Checking [RegexLibrary] (α : Type) : Type :=
  GlobCache → Checked α

namespace Checking

variable [RegexLibrary] {α β : Type}

/-- Run a check on a cache. -/
def run (check : Checking α) (cache : GlobCache) : Checked α :=
  check cache

instance : Monad Checking where
  pure a := fun cache => ⟨a, cache, []⟩
  bind check next := fun cache =>
    let first := check cache
    let second := next first.value first.cache
    ⟨second.value, second.cache, first.notices ++ second.notices⟩

@[ext] theorem ext {x y : Checking α} (h : ∀ cache, x.run cache = y.run cache) : x = y :=
  funext h

@[simp] theorem run_pure (a : α) (cache : GlobCache) :
    (pure a : Checking α).run cache = ⟨a, cache, []⟩ := rfl

@[simp] theorem run_bind (check : Checking α) (next : α → Checking β) (cache : GlobCache) :
    (check >>= next).run cache =
      ⟨((next (check.run cache).value).run (check.run cache).cache).value,
        ((next (check.run cache).value).run (check.run cache).cache).cache,
        (check.run cache).notices ++
          ((next (check.run cache).value).run (check.run cache).cache).notices⟩ := rfl

@[simp] theorem run_map (f : α → β) (check : Checking α) (cache : GlobCache) :
    (f <$> check).run cache =
      ⟨f (check.run cache).value, (check.run cache).cache, (check.run cache).notices⟩ :=
  Checked.ext rfl rfl (List.append_nil (check.run cache).notices)

instance : LawfulMonad Checking :=
  LawfulMonad.mk' Checking
    (fun x => ext fun cache => Checked.ext rfl rfl (List.append_nil (x.run cache).notices))
    (fun _ _ => rfl)
    (fun _ _ _ => ext fun _ => Checked.ext rfl rfl (List.append_assoc ..))

/-- Give notice. -/
def notify (notice : Notice) : Checking Unit :=
  fun cache => ⟨(), cache, [notice]⟩

@[simp] theorem run_notify (notice : Notice) (cache : GlobCache) :
    (notify notice).run cache = ⟨(), cache, [notice]⟩ := rfl

/-- The compiled glob of a pattern, from the cache where it is kept. -/
def compiled (pattern : String) : Checking (Except RegexError CompiledGlob) :=
  fun cache =>
    let (result, cache) := cache.getOrCompile pattern
    ⟨result, cache, []⟩

@[simp] theorem run_compiled (pattern : String) (cache : GlobCache) :
    (compiled pattern).run cache =
      ⟨(cache.getOrCompile pattern).1, (cache.getOrCompile pattern).2, []⟩ := rfl

/-- Forget the compiled globs. -/
def forget : Checking Unit :=
  fun cache => ⟨(), cache.clear, []⟩

/-- The glob of a pattern. A pattern that has none is reported. -/
def glob? (pattern : String) : Checking (Option Glob) := do
  match ← compiled pattern with
  | .ok entry => return some entry.glob
  | .error e =>
    notify (.report (.uncompilable pattern e))
    return none

end Checking

end AccessRules
