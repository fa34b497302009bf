import AccessRules.Glob

/-!
# The cache of compiled globs

A cache keeps the globs that were compiled last, up to its capacity. A table holds them by their
patterns, and a queue holds the patterns in the order in which they came, so that it is known
which glob has to make room for the next one. A pattern that is found in the table costs nothing
and changes nothing: being asked for again does not make a glob any younger.

## Main statements

* `map_glob_getOrCompile`: what is kept does not change which glob a pattern has

## Implementation notes

That a kept glob is the one that its pattern compiles to is part of what is kept
(`KeptGlob.compile_pattern`), so no table can hold a glob under the pattern of another. How table
and queue keep in step is not part of the type: it is a fact about the caches that come up.

Every compiled glob gets a serial number. It plays no part in any decision. It tells whether two
results are one compiled glob or were compiled apart, which is all that can be seen of the cache
from outside.
-/

namespace AccessRules

/-- A compiled glob and its serial number. -/
structure CompiledGlob [RegexLibrary] where
  serial : Nat
  glob : Glob

/-- A compiled glob that is kept for a pattern. -/
structure KeptGlob [RegexLibrary] where
  pattern : String
  compiled : CompiledGlob
  /-- The glob is the one that the pattern compiles to. -/
  compile_pattern : Glob.compile pattern = .ok compiled.glob

/-- The compiled globs that are kept. -/
structure GlobCache [RegexLibrary] where
  capacity : Nat
  /-- The globs by their patterns. -/
  table : List KeptGlob
  /-- The patterns in the order in which they came, oldest first. -/
  queue : List String
  nextSerial : Nat

namespace GlobCache

variable [RegexLibrary]

/-- A cache that keeps nothing yet. -/
def empty (capacity : Nat) : GlobCache :=
  ⟨capacity, [], [], 0⟩

/-- How many globs are kept. -/
def size (cache : GlobCache) : Nat :=
  cache.table.length

/-- Whether no glob is kept. -/
def isEmpty (cache : GlobCache) : Bool :=
  cache.size == 0

/-- Forget every glob. -/
def clear (cache : GlobCache) : GlobCache :=
  { cache with table := [], queue := [] }

/-- The kept glob of a pattern. -/
def find? (cache : GlobCache) (pattern : String) : Option KeptGlob :=
  cache.table.find? fun kept => kept.pattern == pattern

/-- A table without the glob of a pattern. -/
def without (pattern : String) (table : List KeptGlob) : List KeptGlob :=
  table.filter fun kept => kept.pattern != pattern

/-- Drop the oldest patterns and their globs until there is room for one more, or until no pattern
is left to drop. -/
def makeRoom (capacity : Nat) : List String → List KeptGlob → List String × List KeptGlob
  | [], table => ([], table)
  | oldest :: queue, table =>
    if capacity ≤ table.length then makeRoom capacity queue (without oldest table)
    else (oldest :: queue, table)

/-- Keep one more glob as the newest. -/
def keep (cache : GlobCache) (kept : KeptGlob) : GlobCache :=
  let (queue, table) := makeRoom cache.capacity cache.queue cache.table
  { cache with
    table := without kept.pattern table ++ [kept]
    queue := queue ++ [kept.pattern] }

/-- The glob of a pattern: the kept one, or a new one, which is kept from then on. A pattern that
has no glob leaves the cache as it is, and a cache without capacity is neither asked nor filled. -/
def getOrCompile (cache : GlobCache) (pattern : String) :
    Except RegexError CompiledGlob × GlobCache :=
  match if cache.capacity = 0 then none else cache.find? pattern with
  | some kept => (.ok kept.compiled, cache)
  | none =>
    match h : Glob.compile pattern with
    | .error e => (.error e, cache)
    | .ok glob =>
      let compiled : CompiledGlob := ⟨cache.nextSerial, glob⟩
      let cache := { cache with nextSerial := cache.nextSerial + 1 }
      (.ok compiled, if cache.capacity = 0 then cache else cache.keep ⟨pattern, compiled, h⟩)

/-- What is found for a pattern is a glob of that pattern. -/
theorem compile_of_find? {cache : GlobCache} {pattern : String} {kept : KeptGlob}
    (h : cache.find? pattern = some kept) : Glob.compile pattern = .ok kept.compiled.glob := by
  have hpattern : kept.pattern = pattern := by simpa using List.find?_some h
  exact hpattern ▸ kept.compile_pattern

/-- Whatever is kept, the glob of a pattern is the one that it compiles to. -/
theorem map_glob_getOrCompile (cache : GlobCache) (pattern : String) :
    (cache.getOrCompile pattern).1.map (·.glob) = Glob.compile pattern := by
  rw [getOrCompile]
  split
  · next kept hkept =>
    split at hkept
    · simp at hkept
    · simp [Except.map, compile_of_find? hkept]
  · split <;> next h => simp [Except.map, h]

end GlobCache

end AccessRules
