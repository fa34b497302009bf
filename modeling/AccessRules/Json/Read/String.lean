import AccessRules.Except
import AccessRules.Json.Fault

/-!
# Reading JSON strings

The readers begin after the opening quote of a string and end after the closing one. `readString`
finds the text of a string. `skipString` passes over a string whose text nobody needs; it accepts
the same escapes, but does not ask whether those for surrogates form pairs.
-/

namespace AccessRules.Json

open Fault (before within)

/-! ### Escapes -/

/-- The value of a hexadecimal digit. -/
def hexValue? (c : Char) : Option Nat :=
  if c.isDigit then some (c.toNat - '0'.toNat)
  else if 'a' ≤ c ∧ c ≤ 'f' then some (c.toNat - 'a'.toNat + 10)
  else if 'A' ≤ c ∧ c ≤ 'F' then some (c.toNat - 'A'.toNat + 10)
  else none

/-- The fault of four bytes that are no hexadecimal digits. -/
def hexFault (cs : List Char) : Fault :=
  if Text.extent cs < 4 then ⟨.endInString, 0⟩ else ⟨.invalidEscape, Text.extent cs - 4⟩

/-- Read a number of four hexadecimal digits. -/
def readHex (cs : List Char) : Except Fault (Nat × List Char) :=
  match cs with
  | a :: b :: c :: d :: rest =>
    match hexValue? a, hexValue? b, hexValue? c, hexValue? d with
    | some a, some b, some c, some d => .ok (((a * 16 + b) * 16 + c) * 16 + d, rest)
    | _, _, _, _ => .error (hexFault cs)
  | _ => .error (hexFault cs)

/-- Whether a number is the first half of a surrogate pair. -/
def isHighSurrogate (n : Nat) : Bool :=
  0xD800 ≤ n && n ≤ 0xDBFF

/-- Whether a number is the second half of a surrogate pair. -/
def isLowSurrogate (n : Nat) : Bool :=
  0xDC00 ≤ n && n ≤ 0xDFFF

/-- The character of a surrogate pair. -/
def ofSurrogates (high low : Nat) : Char :=
  .ofNat (0x10000 + (high - 0xD800) * 0x400 + (low - 0xDC00))

/-- Pass over a character of the escape that has to follow the first half of a surrogate pair. -/
def skipInPair (expected : Char) : List Char → Except Fault (List Char)
  | [] => .error ⟨.endInString, 0⟩
  | c :: cs => if c = expected then .ok cs else .error (within .halfPair (c :: cs))

/-- Read the escape that has to follow the first half of a surrogate pair. -/
def readLowSurrogate (high : Nat) (cs : List Char) : Except Fault (Char × List Char) := do
  let cs ← skipInPair '\\' cs
  let cs ← skipInPair 'u' cs
  let (low, rest) ← readHex cs
  if isLowSurrogate low then .ok (ofSurrogates high low, rest)
  else .error (before .loneSurrogate rest)

/-- Read what follows the letter of a `\u` escape. -/
def readCodePoint (cs : List Char) : Except Fault (Char × List Char) := do
  let (n, rest) ← readHex cs
  if isLowSurrogate n then .error (before .loneSurrogate rest)
  else if isHighSurrogate n then readLowSurrogate n rest
  else .ok (.ofNat n, rest)

/-- The character that a letter after a backslash stands for. -/
def shortEscape? (c : Char) : Option Char :=
  match c with
  | '"' => some '"'
  | '\\' => some '\\'
  | '/' => some '/'
  | 'b' => some '\x08'
  | 'f' => some '\x0c'
  | 'n' => some '\n'
  | 'r' => some '\r'
  | 't' => some '\t'
  | _ => none

/-- Read what follows a backslash. -/
def readEscape : List Char → Except Fault (Char × List Char)
  | [] => .error ⟨.endInString, 0⟩
  | c :: cs =>
    match shortEscape? c with
    | some d => .ok (d, cs)
    | none => if c = 'u' then readCodePoint cs else .error (within .invalidEscape (c :: cs))

/-- Pass over what follows a backslash. -/
def skipEscape : List Char → Except Fault (List Char)
  | [] => .error ⟨.endInString, 0⟩
  | c :: cs =>
    match shortEscape? c with
    | some _ => .ok cs
    | none =>
      if c = 'u' then Prod.snd <$> readHex cs else .error (within .invalidEscape (c :: cs))

theorem length_lt_of_readHex {cs rest : List Char} {n : Nat} (h : readHex cs = .ok (n, rest)) :
    rest.length < cs.length := by
  unfold readHex at h
  split at h
  · split at h
    · cases h
      simp only [List.length_cons]
      omega
    · cases h
  · cases h

theorem length_lt_of_skipInPair {c : Char} {cs rest : List Char}
    (h : skipInPair c cs = .ok rest) : rest.length < cs.length := by
  unfold skipInPair at h
  split at h
  · cases h
  · split at h <;> cases h
    exact Nat.lt_succ_self _

theorem length_lt_of_readLowSurrogate {high : Nat} {cs rest : List Char} {d : Char}
    (h : readLowSurrogate high cs = .ok (d, rest)) : rest.length < cs.length := by
  simp only [readLowSurrogate, bind_eq_ok] at h
  obtain ⟨cs₁, h₁, cs₂, h₂, ⟨low, cs₃⟩, h₃, h⟩ := h
  have := length_lt_of_skipInPair h₁
  have := length_lt_of_skipInPair h₂
  have := length_lt_of_readHex h₃
  split at h
  · obtain rfl : cs₃ = rest := (Prod.mk.inj (Except.ok.inj h)).2
    omega
  · cases h

theorem length_lt_of_readCodePoint {cs rest : List Char} {d : Char}
    (h : readCodePoint cs = .ok (d, rest)) : rest.length < cs.length := by
  simp only [readCodePoint, bind_eq_ok] at h
  obtain ⟨⟨n, cs₁⟩, h₁, h⟩ := h
  have := length_lt_of_readHex h₁
  split at h
  · cases h
  · split at h
    · exact Nat.lt_trans (length_lt_of_readLowSurrogate h) this
    · cases h
      exact this

theorem length_lt_of_readEscape {cs rest : List Char} {d : Char}
    (h : readEscape cs = .ok (d, rest)) : rest.length < cs.length := by
  unfold readEscape at h
  split at h
  · cases h
  · split at h
    · cases h
      exact Nat.lt_succ_self _
    · split at h
      · exact Nat.lt_succ_of_lt (length_lt_of_readCodePoint h)
      · cases h

theorem length_lt_of_skipEscape {cs rest : List Char} (h : skipEscape cs = .ok rest) :
    rest.length < cs.length := by
  unfold skipEscape at h
  split at h
  · cases h
  · split at h
    · cases h
      exact Nat.lt_succ_self _
    · split at h
      · obtain ⟨⟨n, cs₁⟩, h₁, rfl⟩ := map_eq_ok.1 h
        exact Nat.lt_succ_of_lt (length_lt_of_readHex h₁)
      · cases h

/-! ### Strings -/

/-- Whether a character has to be escaped in a string. -/
def isControl (c : Char) : Bool :=
  c.toNat < 0x20

/-- Read a string: its characters. -/
def readString (cs : List Char) : Except Fault (List Char × List Char) :=
  match cs with
  | [] => .error ⟨.endInString, 0⟩
  | c :: cs =>
    if c = '"' then .ok ([], cs)
    else if c = '\\' then
      match h : readEscape cs with
      | .error e => .error e
      | .ok (d, rest) =>
        have := length_lt_of_readEscape h
        match readString rest with
        | .error e => .error e
        | .ok (ds, rest) => .ok (d :: ds, rest)
    else if isControl c then .error (within .controlCharacter (c :: cs))
    else
      match readString cs with
      | .error e => .error e
      | .ok (ds, rest) => .ok (c :: ds, rest)
termination_by cs.length
decreasing_by all_goals simp only [List.length_cons]; omega

theorem length_lt_of_readString {cs rest ds : List Char} (h : readString cs = .ok (ds, rest)) :
    rest.length < cs.length := by
  fun_induction readString cs generalizing ds with
  | case1 => cases h
  | case2 => cases h; exact Nat.lt_succ_self _
  | case3 => cases h
  | case4 => cases h
  | case5 _ _ _ _ length_lt _ _ inner _ ih =>
    cases h
    exact Nat.lt_succ_of_lt (Nat.lt_trans (ih inner) length_lt)
  | case6 => cases h
  | case7 => cases h
  | case8 _ _ _ _ _ _ _ inner ih =>
    cases h
    exact Nat.lt_succ_of_lt (ih inner)

/-- Pass over a string. -/
def skipString (cs : List Char) : Except Fault (List Char) :=
  match cs with
  | [] => .error ⟨.endInString, 0⟩
  | c :: cs =>
    if c = '"' then .ok cs
    else if c = '\\' then
      match h : skipEscape cs with
      | .error e => .error e
      | .ok rest =>
        have := length_lt_of_skipEscape h
        skipString rest
    else if isControl c then .error (before .controlCharacter (c :: cs))
    else skipString cs
termination_by cs.length
decreasing_by all_goals simp only [List.length_cons]; omega

end AccessRules.Json
