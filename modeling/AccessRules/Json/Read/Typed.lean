import AccessRules.Json.Read.Skip

/-!
# Reading values of a known type

A reader that expects one type of value says what it found instead. For that it reads as much of
the other value as it takes to name it: a scalar whole, and of an array or an object nothing.
-/

namespace AccessRules.Json

open Fault (before within)

/-- What stands where another type of value was expected, after the blanks before it. -/
def foundAt (cs : List Char) : Except Fault (Found × List Char) :=
  match cs with
  | [] => .error ⟨.endInValue, 0⟩
  | c :: rest =>
    if c = 'n' then do
      let rest ← skipWord rest ['u', 'l', 'l']
      return (.null, rest)
    else if c = 't' then do
      let rest ← skipWord rest ['r', 'u', 'e']
      return (.bool true, rest)
    else if c = 'f' then do
      let rest ← skipWord rest ['a', 'l', 's', 'e']
      return (.bool false, rest)
    else if c = '-' ∨ c.isDigit then do
      let (n, rest) ← readNumber (c :: rest)
      return (.number n, rest)
    else if c = '"' then do
      let (s, rest) ← readString rest
      return (.string (String.ofList s), rest)
    else if c = '[' then .ok (.sequence, c :: rest)
    else if c = '\x7b' then .ok (.map, c :: rest)
    else .error (within .expectedValue (c :: rest))

/-- The fault of a value of another type than the expected one. -/
def mismatch (expected : String) (cs : List Char) : Fault :=
  match foundAt cs with
  | .error e => e
  | .ok (found, rest) => before (.wrongKind found expected) rest

/-- Read a string. -/
def readText (expected : String) (cs : List Char) : Except Fault (String × List Char) :=
  match skipBlanks cs with
  | [] => .error ⟨.endInValue, 0⟩
  | c :: rest =>
    if c = '"' then do
      let (s, rest) ← readString rest
      return (String.ofList s, rest)
    else .error (mismatch expected (c :: rest))

/-- The count that a number is. -/
def countOf (n : Number) (rest : List Char) : Except Fault (UInt64 × List Char) :=
  match n with
  | .natural n => .ok (.ofNat n, rest)
  | .negative n => .error (before (.wrongValue (.number (.negative n)) "usize") rest)
  | .floating x => .error (before (.wrongKind (.number (.floating x)) "usize") rest)

/-- Read a count. -/
def readCount (cs : List Char) : Except Fault (UInt64 × List Char) :=
  match skipBlanks cs with
  | [] => .error ⟨.endInValue, 0⟩
  | c :: rest =>
    if c = '-' ∨ c.isDigit then do
      let (n, rest) ← readNumber (c :: rest)
      countOf n rest
    else .error (mismatch "usize" (c :: rest))

theorem length_lt_of_readCount {cs rest : List Char} {n : UInt64}
    (h : readCount cs = .ok (n, rest)) : rest.length < cs.length := by
  have rest_of_countOf {m : Number} {mid : List Char} (h : countOf m mid = .ok (n, rest)) :
      rest = mid := by
    cases m <;> cases h
    rfl
  rw [readCount] at h
  split at h
  · cases h
  · next blanks =>
    split at h
    · obtain ⟨⟨m, mid⟩, h₁, h₂⟩ := bind_eq_ok.1 h
      rw [rest_of_countOf h₂]
      exact Nat.lt_of_lt_of_le (length_lt_of_readNumber h₁) (length_lt_of_skipBlanks blanks)
    · cases h

/-- Read a text that holds one value and blanks. -/
def readDocument {α : Type} (read : List Char → Except Fault (α × List Char)) (text : String) :
    Except Fault α := do
  let (a, rest) ← read text.toList
  match skipBlanks rest with
  | [] => return a
  | cs => .error (within .trailingCharacters cs)

/-- The text that a document is, if it is a JSON string. -/
def textOfDocument : String → Except Fault String :=
  readDocument (readText "a string")

end AccessRules.Json
