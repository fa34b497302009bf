import AccessRules.Json.Read.Typed
import AccessRules.Settings

/-!
# A built-in reader of settings

A document sets any of the settings, either as the members of an object or as the first items of
an array in the order of the settings. Other members are passed over.
-/

namespace AccessRules.Settings

open Json
open Json.Fault (before within)

/-- The fault of a setting that an object sets a second time. Its place is behind the key, and
behind the blanks and the closing brace after it. -/
def duplicateFault (setting : Setting) (cs : List Char) : Fault :=
  let rest := skipBlanks cs
  before (.duplicateMember setting.key) (if rest.head? = some '\x7d' then rest.tail else rest)

/-- Read the value of a member, given what was set before. -/
def readMember (seen : Overrides) (key : String) (cs : List Char) :
    Except Fault (Overrides × List Char) :=
  match Setting.ofKey? key with
  | none => do
    let rest ← skipColon cs
    let rest ← skipValue rest
    return (seen, rest)
  | some setting =>
    if (seen setting).isSome then .error (duplicateFault setting cs)
    else do
      let rest ← skipColon cs
      let (value, rest) ← readCount rest
      return (seen.set setting value, rest)

/-- What stands where the next member starts, if `c` is the first character that is no blank. -/
def memberStart (afterMember : Bool) (c : Char) (cs : List Char) : List Char :=
  if afterMember then skipBlanks cs else c :: cs

theorem length_le_of_readMember {seen seen' : Overrides} {key : String} {cs rest : List Char}
    (h : readMember seen key cs = .ok (seen', rest)) : rest.length ≤ cs.length := by
  rw [readMember] at h
  split at h
  · obtain ⟨next, h₁, h⟩ := bind_eq_ok.1 h
    obtain ⟨last, h₂, h⟩ := bind_eq_ok.1 h
    cases h
    exact Nat.le_trans (length_le_of_skipValue h₂) (length_le_of_skipColon h₁)
  · split at h
    · cases h
    · obtain ⟨next, h₁, h⟩ := bind_eq_ok.1 h
      obtain ⟨⟨value, last⟩, h₂, h⟩ := bind_eq_ok.1 h
      cases h
      exact Nat.le_trans (Nat.le_of_lt (length_lt_of_readCount h₂)) (length_le_of_skipColon h₁)

theorem length_memberStart_le (afterMember : Bool) (c : Char) (cs : List Char) :
    (memberStart afterMember c cs).length ≤ cs.length + 1 := by
  rw [memberStart]
  split
  · exact Nat.le_succ_of_le (length_skipBlanks_le cs)
  · exact Nat.le_refl _

/-- Read members up to the closing brace of an object. `afterMember` tells whether a member has
just ended. -/
def readMembers (seen : Overrides) (afterMember : Bool) (cs : List Char) :
    Except Fault (Overrides × List Char) :=
  match h : skipBlanks cs with
  | [] => .error ⟨.endInObject, 0⟩
  | c :: rest =>
    have := length_lt_of_skipBlanks h
    if c = '\x7d' then .ok (seen, rest)
    else if afterMember ∧ c ≠ ',' then .error (within .expectedMemberEnd (c :: rest))
    else
      match hm : memberStart afterMember c rest with
      | [] => .error ⟨.endInValue, 0⟩
      | d :: rest' =>
        have := hm ▸ length_memberStart_le afterMember c rest
        if d = '"' then
          match hs : readString rest' with
          | .error e => .error e
          | .ok (key, rest'') =>
            have := length_lt_of_readString hs
            match hv : readMember seen (String.ofList key) rest'' with
            | .error e => .error e
            | .ok (seen, rest''') =>
              have := length_le_of_readMember hv
              readMembers seen true rest'''
        else if d = '\x7d' then .error (within .trailingComma (d :: rest'))
        else .error (within .keyNotString (d :: rest'))
termination_by cs.length
decreasing_by simp only [List.length_cons] at *; omega

/-- Read items for these settings, up to the closing bracket of an array. `afterItem` tells
whether an item has just ended. -/
def readItems (seen : Overrides) (afterItem : Bool) (cs : List Char) :
    List Setting → Except Fault (Overrides × List Char)
  | [] =>
    match skipBlanks cs with
    | [] => .error ⟨.endInArray, 0⟩
    | c :: rest =>
      if c = ']' then .ok (seen, rest)
      else if c = ',' then
        let rest := skipBlanks rest
        .error (within (if rest.head? = some ']' then .trailingComma else .trailingCharacters) rest)
      else .error (within .trailingCharacters (c :: rest))
  | setting :: settings =>
    match skipBlanks cs with
    | [] => .error ⟨.endInArray, 0⟩
    | c :: rest =>
      if c = ']' then .ok (seen, rest)
      else if afterItem ∧ c ≠ ',' then .error (within .expectedItemEnd (c :: rest))
      else
        let start := memberStart afterItem c rest
        if start.head? = some ']' then .error (within .trailingComma start)
        else do
          let (value, rest) ← readCount start
          readItems (seen.set setting value) true rest settings

/-- Read the values of settings. -/
def read (cs : List Char) : Except Fault (Overrides × List Char) :=
  match skipBlanks cs with
  | [] => .error ⟨.endInValue, 0⟩
  | c :: rest =>
    if c = '\x7b' then readMembers .none false rest
    else if c = '[' then readItems .none false rest Setting.all
    else .error (mismatch "struct EngineConfig" (c :: rest))

/-- The values that a document sets. -/
def overridesOfDocument : String → Except Fault Overrides :=
  readDocument read

end AccessRules.Settings
