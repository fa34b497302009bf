import AccessRules.Json.Read.Number
import AccessRules.Json.Read.String

/-!
# Passing over JSON values

A member that nobody asks for still has to be well-formed. `skipValue` passes over one value, of
any depth.

## Implementation notes

The brackets that are open around a place are kept in a list, innermost first, so that no limit on
the depth is needed. A bracket that has just been opened may be closed at once; after an item or a
member, a comma or the closing bracket has to follow.
-/

namespace AccessRules.Json

open Fault (before within)

/-! ### Blanks and words -/

/-- The characters that may stand between the tokens of a JSON text. -/
def isBlank (c : Char) : Bool :=
  c == ' ' || c == '\t' || c == '\n' || c == '\r'

/-- A text without the blanks at its front. -/
def skipBlanks (cs : List Char) : List Char :=
  cs.dropWhile isBlank

/-- Pass over the letters of a word. -/
def skipWord (cs : List Char) : List Char → Except Fault (List Char)
  | [] => .ok cs
  | letter :: letters =>
    match cs with
    | [] => .error ⟨.endInValue, 0⟩
    | c :: rest =>
      if c = letter then skipWord rest letters else .error (within .expectedIdent (c :: rest))

/-- The letters after the first one in the word that begins with `c`. -/
def wordTail? (c : Char) : Option (List Char) :=
  if c = 'n' then some ['u', 'l', 'l']
  else if c = 't' then some ['r', 'u', 'e']
  else if c = 'f' then some ['a', 'l', 's', 'e']
  else none

/-- Pass over a value that begins with `c` and is neither an array nor an object. -/
def skipScalar (c : Char) (cs : List Char) : Except Fault (List Char) :=
  match wordTail? c with
  | some letters => skipWord cs letters
  | none =>
    if c = '"' then skipString cs
    else if c = '-' then skipUnsigned cs
    else if c.isDigit then skipUnsigned (c :: cs)
    else .error (within .expectedValue (c :: cs))

theorem length_skipBlanks_le (cs : List Char) : (skipBlanks cs).length ≤ cs.length :=
  (List.dropWhile_sublist _).length_le

theorem length_lt_of_skipBlanks {cs rest : List Char} {c : Char}
    (h : skipBlanks cs = c :: rest) : rest.length < cs.length :=
  Nat.lt_of_succ_le (Nat.le_trans (Nat.le_of_eq (congrArg List.length h.symm))
    (length_skipBlanks_le cs))

theorem length_le_of_skipWord {cs rest letters : List Char}
    (h : skipWord cs letters = .ok rest) : rest.length ≤ cs.length := by
  induction letters generalizing cs with
  | nil =>
    simp only [skipWord, Except.ok.injEq] at h
    exact Nat.le_of_eq (congrArg _ h.symm)
  | cons letter letters ih =>
    unfold skipWord at h
    split at h
    · cases h
    · split at h
      · exact Nat.le_succ_of_le (ih h)
      · cases h

theorem length_le_of_skipString {cs rest : List Char} (h : skipString cs = .ok rest) :
    rest.length ≤ cs.length := by
  fun_induction skipString cs with
  | case1 => cases h
  | case2 => cases h; exact Nat.le_succ _
  | case3 => cases h
  | case4 _ _ _ length_lt _ ih =>
    exact Nat.le_succ_of_le (Nat.le_trans (ih h) (Nat.le_of_lt length_lt))
  | case5 => cases h
  | case6 _ _ _ _ _ ih => exact Nat.le_succ_of_le (ih h)

theorem length_le_of_skipScalar {c : Char} {cs rest : List Char}
    (h : skipScalar c cs = .ok rest) : rest.length ≤ cs.length := by
  rw [skipScalar] at h
  split at h
  · exact length_le_of_skipWord h
  · split at h
    · exact length_le_of_skipString h
    · split at h
      · exact Nat.le_of_lt (length_lt_of_skipUnsigned h)
      · split at h
        · exact Nat.le_of_lt_succ (length_lt_of_skipUnsigned h)
        · cases h

/-! ### Arrays and objects -/

/-- The two kinds of brackets. -/
inductive Bracket where
  | array
  | object
  deriving DecidableEq, Repr

namespace Bracket

/-- The bracket that a character opens. -/
def ofOpening? (c : Char) : Option Bracket :=
  if c = '[' then some array else if c = '\x7b' then some object else none

/-- The character that closes a bracket. -/
def closing : Bracket → Char
  | array => ']'
  | object => '\x7d'

/-- The fault of a text that ends inside the bracket. -/
def endCause : Bracket → Fault.Cause
  | array => .endInArray
  | object => .endInObject

/-- The fault of a text that goes on without a comma. -/
def commaCause : Bracket → Fault.Cause
  | array => .expectedItemEnd
  | object => .expectedMemberEnd

end Bracket

/-- Pass over the colon between a key and its value. -/
def skipColon (cs : List Char) : Except Fault (List Char) :=
  match skipBlanks cs with
  | [] => .error ⟨.endInObject, 0⟩
  | c :: rest => if c = ':' then .ok rest else .error (within .expectedColon (c :: rest))

/-- Pass over what stands before the value of an entry: in an object, its key and the colon. -/
def skipKey (bracket : Bracket) (cs : List Char) : Except Fault (List Char) :=
  match bracket with
  | .array => .ok cs
  | .object =>
    match skipBlanks cs with
    | [] => .error ⟨.endInObject, 0⟩
    | c :: rest =>
      if c = '"' then do
        let rest ← skipString rest
        skipColon rest
      else .error (within .keyNotString (c :: rest))

theorem length_le_of_skipColon {cs rest : List Char} (h : skipColon cs = .ok rest) :
    rest.length ≤ cs.length := by
  rw [skipColon] at h
  split at h
  · cases h
  · next blanks =>
    split at h <;> cases h
    exact Nat.le_of_lt (length_lt_of_skipBlanks blanks)

theorem length_le_of_skipKey {bracket : Bracket} {cs rest : List Char}
    (h : skipKey bracket cs = .ok rest) : rest.length ≤ cs.length := by
  unfold skipKey at h
  split at h
  · cases h
    exact Nat.le_refl _
  · split at h
    · cases h
    · next blanks =>
      split at h
      · obtain ⟨mid, h₁, h₂⟩ := bind_eq_ok.1 h
        exact Nat.le_of_lt (Nat.lt_of_le_of_lt
          (Nat.le_trans (length_le_of_skipColon h₂) (length_le_of_skipString h₁))
          (length_lt_of_skipBlanks blanks))
      · cases h

/-- Where the next entry starts, if `c` is the first character that is no blank: after the comma
that has to follow an entry. -/
def entryStart (afterEntry : Bool) (c : Char) (cs : List Char) : List Char :=
  if afterEntry then cs else c :: cs

theorem length_entryStart_le (afterEntry : Bool) (c : Char) (cs : List Char) :
    (entryStart afterEntry c cs).length ≤ cs.length + 1 := by
  rw [entryStart]
  split <;> simp

mutual

/-- Pass over a value inside the brackets `around`, and over what closes them. -/
def skipWithin (around : List Bracket) (cs : List Char) : Except Fault (List Char) :=
  match h : skipBlanks cs with
  | [] => .error ⟨.endInValue, 0⟩
  | c :: rest =>
    have := length_lt_of_skipBlanks h
    match Bracket.ofOpening? c with
    | some bracket => skipEntries bracket around false rest
    | none =>
      match hs : skipScalar c rest with
      | .error e => .error e
      | .ok rest =>
        have := length_le_of_skipScalar hs
        skipAround around rest
termination_by (cs.length, 0)
decreasing_by all_goals simp only [Prod.lex_def]; omega

/-- Pass over what is left of a bracket inside the brackets `around`, and over what closes these.
`afterEntry` tells whether an entry has just ended. -/
def skipEntries (bracket : Bracket) (around : List Bracket) (afterEntry : Bool)
    (cs : List Char) : Except Fault (List Char) :=
  match h : skipBlanks cs with
  | [] => .error ⟨bracket.endCause, 0⟩
  | c :: rest =>
    have := length_lt_of_skipBlanks h
    if c = bracket.closing then skipAround around rest
    else if afterEntry ∧ c ≠ ',' then .error (within bracket.commaCause (c :: rest))
    else
      match hk : skipKey bracket (entryStart afterEntry c rest) with
      | .error e => .error e
      | .ok next =>
        have := length_le_of_skipKey hk
        have := length_entryStart_le afterEntry c rest
        skipWithin (bracket :: around) next
termination_by (cs.length, 1)
decreasing_by all_goals simp only [Prod.lex_def]; omega

/-- Pass over what follows an entry of the innermost of the brackets `around`, and over what closes
them. -/
def skipAround (around : List Bracket) (cs : List Char) : Except Fault (List Char) :=
  match around with
  | [] => .ok cs
  | bracket :: around => skipEntries bracket around true cs
termination_by (cs.length, 2)
decreasing_by exact Prod.Lex.right _ (Nat.lt_succ_self _)

end

theorem skipWithin_eq (around : List Bracket) (cs : List Char) :
    skipWithin around cs =
      match skipBlanks cs with
      | [] => .error ⟨.endInValue, 0⟩
      | c :: rest =>
        match Bracket.ofOpening? c with
        | some bracket => skipEntries bracket around false rest
        | none => skipScalar c rest >>= skipAround around := by
  rw [skipWithin]
  split
  · next h => rw [h]
  · next c rest h =>
    simp only [h]
    cases Bracket.ofOpening? c with
    | some bracket => rfl
    | none => dsimp only; split <;> next hs => rw [hs]; rfl

theorem skipEntries_eq (bracket : Bracket) (around : List Bracket) (afterEntry : Bool)
    (cs : List Char) :
    skipEntries bracket around afterEntry cs =
      match skipBlanks cs with
      | [] => .error ⟨bracket.endCause, 0⟩
      | c :: rest =>
        if c = bracket.closing then skipAround around rest
        else if afterEntry ∧ c ≠ ',' then .error (within bracket.commaCause (c :: rest))
        else skipKey bracket (entryStart afterEntry c rest) >>= skipWithin (bracket :: around) := by
  rw [skipEntries]
  split
  · next h => rw [h]
  · next c rest h =>
    simp only [h]
    split
    · rfl
    · split
      · rfl
      · split <;> next hk => rw [hk]; rfl

/-- Pass over a value. -/
def skipValue (cs : List Char) : Except Fault (List Char) :=
  skipWithin [] cs

/-- What is left after a value, after an entry and after a bracket is a part of what was there. -/
theorem length_le_of_skip {rest : List Char} :
    (∀ around cs, skipWithin around cs = .ok rest → rest.length ≤ cs.length) ∧
      (∀ around cs, skipAround around cs = .ok rest → rest.length ≤ cs.length) ∧
      ∀ bracket around afterEntry cs,
        skipEntries bracket around afterEntry cs = .ok rest → rest.length ≤ cs.length := by
  apply skipWithin.mutual_induct
  case case1 =>
    intro around cs blanks h
    rw [skipWithin_eq, blanks] at h
    cases h
  case case2 =>
    intro around cs c tail blanks lt bracket opening ih h
    rw [skipWithin_eq, blanks] at h
    simp only [opening] at h
    exact Nat.le_trans (ih h) (Nat.le_of_lt lt)
  case case3 =>
    intro around cs c tail blanks lt opening e scalar h
    rw [skipWithin_eq, blanks] at h
    simp only [opening, scalar] at h
    cases h
  case case4 =>
    intro around cs c tail blanks lt opening next scalar le ih h
    rw [skipWithin_eq, blanks] at h
    simp only [opening, scalar] at h
    exact Nat.le_trans (ih h) (Nat.le_trans le (Nat.le_of_lt lt))
  case case5 =>
    intro cs h
    rw [skipAround] at h
    cases h
    exact Nat.le_refl _
  case case6 =>
    intro cs bracket around ih h
    rw [skipAround] at h
    exact ih h
  case case7 =>
    intro bracket around afterEntry cs blanks h
    rw [skipEntries_eq, blanks] at h
    cases h
  case case8 =>
    intro bracket around afterEntry cs tail blanks lt ih h
    rw [skipEntries_eq, blanks] at h
    simp only [if_true] at h
    exact Nat.le_trans (ih h) (Nat.le_of_lt lt)
  case case9 =>
    intro bracket around afterEntry cs c tail blanks lt ne comma h
    rw [skipEntries_eq, blanks] at h
    simp only [ne, if_false, if_pos comma] at h
    cases h
  case case10 =>
    intro bracket around afterEntry cs c tail blanks lt ne comma e key h
    rw [skipEntries_eq, blanks] at h
    simp only [ne, comma, if_false, key] at h
    cases h
  case case11 =>
    intro bracket around afterEntry cs c tail blanks lt ne comma next key le le' ih h
    rw [skipEntries_eq, blanks] at h
    simp only [ne, comma, if_false, key] at h
    exact Nat.le_trans (ih h) (Nat.le_trans le (Nat.le_trans le' lt))

theorem length_le_of_skipValue {cs rest : List Char} (h : skipValue cs = .ok rest) :
    rest.length ≤ cs.length :=
  length_le_of_skip.1 [] cs h

end AccessRules.Json
