import AccessRules.Except
import AccessRules.Json.Fault

/-!
# Reading JSON numbers

`readNumber` finds the value of a number. Of its digits it keeps as many as 64 bits can hold; the
others count as powers of ten before the point and are dropped after it. `skipNumber` passes over
a number whose value nobody needs, so that it never finds one out of range.
-/

namespace AccessRules.Json

open Fault (before within)

/-- Whether a text begins with a digit. -/
def startsWithDigit (cs : List Char) : Bool :=
  cs.head?.any Char.isDigit

/-- A text without the digits at its front. -/
def skipDigits (cs : List Char) : List Char :=
  cs.dropWhile Char.isDigit

/-- A text without the sign at its front, and whether that is a minus sign. -/
def takeSign : List Char → Bool × List Char
  | [] => (false, [])
  | c :: cs => if c = '+' then (false, cs) else if c = '-' then (true, cs) else (false, c :: cs)

theorem length_skipDigits_le (cs : List Char) : (skipDigits cs).length ≤ cs.length :=
  (List.dropWhile_sublist _).length_le

/-! ### Values -/

/-- Append digits to a number while it stays below `2 ^ 64`: the number, how many digits it took,
and what follows them. -/
def takeDigits (n : Nat) : List Char → Nat × Nat × List Char
  | [] => (n, 0, [])
  | c :: cs =>
    let m := n * 10 + (c.toNat - '0'.toNat)
    if c.isDigit ∧ m < UInt64.size then
      let (m, count, rest) := takeDigits m cs
      (m, count + 1, rest)
    else (n, 0, c :: cs)

/-- Append digits to an exponent. The digit that makes it too large is the last one taken, and
what follows is the error. -/
def takeExponent (n : Nat) : List Char → Except (List Char) (Nat × List Char)
  | [] => .ok (n, [])
  | c :: cs =>
    if c.isDigit then
      let m := n * 10 + (c.toNat - '0'.toNat)
      if m < Nat.pow 2 31 then takeExponent m cs else .error cs
    else .ok (n, c :: cs)

/-- The number of these digits and this power of ten, with what follows it. -/
def finish (significand : Nat) (exponent : Int) (rest : List Char) :
    Except Fault (Float × List Char) :=
  match Number.assemble? significand exponent with
  | some x => .ok (x, rest)
  | none => .error (before .numberOutOfRange rest)

/-- Read what follows the letter of an exponent. -/
def readExponent (significand : Nat) (exponent : Int) (cs : List Char) :
    Except Fault (Float × List Char) :=
  let (isNegative, cs) := takeSign cs
  if cs.isEmpty then .error ⟨.endInValue, 0⟩
  else if !startsWithDigit cs then .error (within .invalidNumber cs)
  else
    match takeExponent 0 cs with
    | .ok (n, rest) => finish significand (if isNegative then exponent - n else exponent + n) rest
    | .error rest =>
      if significand ≠ 0 ∧ !isNegative then .error (before .numberOutOfRange rest)
      else .ok (0, skipDigits rest)

/-- Read the exponent of a number, if it has one. -/
def readScale (significand : Nat) (exponent : Int) (cs : List Char) :
    Except Fault (Float × List Char) :=
  match cs with
  | [] => finish significand exponent []
  | c :: rest =>
    if c = 'e' ∨ c = 'E' then readExponent significand exponent rest
    else finish significand exponent (c :: rest)

/-- Read what follows the point of a number. -/
def readFraction (significand : Nat) (exponent : Int) (cs : List Char) :
    Except Fault (Float × List Char) :=
  if cs.isEmpty then .error ⟨.endInValue, 0⟩
  else if !startsWithDigit cs then .error (within .invalidNumber cs)
  else
    let (significand, count, rest) := takeDigits significand cs
    readScale significand (exponent - count) (skipDigits rest)

/-- Read what follows the digits before the point, if the number is no integer. -/
def readRest (significand : Nat) (exponent : Int) (cs : List Char) :
    Except Fault (Float × List Char) :=
  match cs with
  | [] => finish significand exponent []
  | c :: rest =>
    if c = '.' then readFraction significand exponent rest
    else readScale significand exponent (c :: rest)

/-- Whether a text goes on a number beyond its integer part. -/
def continuesNumber (cs : List Char) : Bool :=
  cs.head?.any fun c => c.isDigit || c == '.' || c == 'e' || c == 'E'

/-- Read a number after its sign. -/
def readUnsigned (isNegative : Bool) (cs : List Char) : Except Fault (Number × List Char) :=
  match cs with
  | [] => .error ⟨.endInValue, 0⟩
  | c :: cs =>
    if !c.isDigit then .error (within .invalidNumber (c :: cs))
    else if c = '0' ∧ startsWithDigit cs then .error (within .invalidNumber cs)
    else
      let (significand, _, rest) := takeDigits 0 (c :: cs)
      if continuesNumber rest then do
        let dropped := (rest.takeWhile Char.isDigit).length
        let (x, rest) ← readRest significand dropped (skipDigits rest)
        return (.ofFloat isNegative x, rest)
      else .ok (.ofInteger isNegative significand, rest)

/-- Read a number. -/
def readNumber (cs : List Char) : Except Fault (Number × List Char) :=
  match cs with
  | [] => .error ⟨.endInValue, 0⟩
  | c :: rest => if c = '-' then readUnsigned true rest else readUnsigned false (c :: rest)

/-! ### Passing over a number -/

/-- Pass over digits, of which there has to be one. -/
def skipSomeDigits (cs : List Char) : Except Fault (List Char) :=
  if startsWithDigit cs then .ok (skipDigits cs) else .error (within .invalidNumber cs)

/-- Pass over the exponent of a number, if it has one. -/
def skipScale : List Char → Except Fault (List Char)
  | [] => .ok []
  | c :: cs =>
    if c = 'e' ∨ c = 'E' then skipSomeDigits (takeSign cs).2 else .ok (c :: cs)

/-- Pass over what follows the digits before the point. -/
def skipRest : List Char → Except Fault (List Char)
  | [] => .ok []
  | c :: cs =>
    if c = '.' then do
      let rest ← skipSomeDigits cs
      skipScale rest
    else skipScale (c :: cs)

/-- Pass over a number after its sign. -/
def skipUnsigned : List Char → Except Fault (List Char)
  | [] => .error ⟨.invalidNumber, 0⟩
  | c :: cs =>
    if !c.isDigit then .error (within .invalidNumber (c :: cs))
    else if c = '0' ∧ startsWithDigit cs then .error (within .invalidNumber cs)
    else skipRest (skipDigits cs)

/-! ### What is left -/

theorem length_takeSign_le (cs : List Char) : (takeSign cs).2.length ≤ cs.length := by
  unfold takeSign
  split
  · exact Nat.le_refl _
  · split
    · exact Nat.le_succ _
    · split
      · exact Nat.le_succ _
      · exact Nat.le_refl _

theorem length_takeDigits_le (n : Nat) (cs : List Char) :
    (takeDigits n cs).2.2.length ≤ cs.length := by
  induction cs generalizing n with
  | nil => exact Nat.le_refl _
  | cons c cs ih =>
    simp only [takeDigits]
    split
    · exact Nat.le_succ_of_le (ih _)
    · exact Nat.le_refl _

theorem length_lt_of_takeDigits {c : Char} {cs : List Char} (h : c.isDigit = true) :
    (takeDigits 0 (c :: cs)).2.2.length < (c :: cs).length := by
  have small : 0 * 10 + (c.toNat - '0'.toNat) < UInt64.size := by
    have bound : c.toNat < UInt32.size := c.val.toNat_lt_size
    have wider : UInt32.size ≤ UInt64.size := by decide
    omega
  simp only [takeDigits, h, small, and_self, if_true]
  exact Nat.lt_succ_of_le (length_takeDigits_le _ cs)

theorem length_le_of_takeExponent {n : Nat} {cs : List Char} :
    (∀ m rest, takeExponent n cs = .ok (m, rest) → rest.length ≤ cs.length) ∧
      ∀ rest, takeExponent n cs = .error rest → rest.length ≤ cs.length := by
  induction cs generalizing n with
  | nil =>
    simp only [takeExponent]
    exact ⟨fun m rest h => by cases h; exact Nat.le_refl _, fun rest h => nomatch h⟩
  | cons c cs ih =>
    simp only [takeExponent]
    split
    · split
      · exact ⟨fun m rest h => Nat.le_succ_of_le (ih.1 m rest h),
          fun rest h => Nat.le_succ_of_le (ih.2 rest h)⟩
      · exact ⟨fun m rest h => (nomatch h), fun rest h => by cases h; exact Nat.le_succ _⟩
    · exact ⟨fun m rest h => by cases h; exact Nat.le_refl _, fun rest h => nomatch h⟩

theorem rest_of_finish {n : Nat} {exponent : Int} {cs rest : List Char} {x : Float}
    (h : finish n exponent cs = .ok (x, rest)) : rest = cs := by
  rw [finish] at h
  split at h <;> cases h
  rfl

theorem length_le_of_readExponent {n : Nat} {exponent : Int} {cs rest : List Char} {x : Float}
    (h : readExponent n exponent cs = .ok (x, rest)) : rest.length ≤ cs.length := by
  have sign := length_takeSign_le cs
  rw [readExponent] at h
  split at h
  next isNegative tail heq =>
  rw [heq] at sign
  split at h
  · cases h
  · split at h
    · cases h
    · split at h
      · next taken =>
        rw [rest_of_finish h]
        exact Nat.le_trans (length_le_of_takeExponent.1 _ _ taken) sign
      · next taken =>
        split at h
        · cases h
        · cases h
          exact Nat.le_trans (length_skipDigits_le _)
            (Nat.le_trans (length_le_of_takeExponent.2 _ taken) sign)

theorem length_le_of_readScale {n : Nat} {exponent : Int} {cs rest : List Char} {x : Float}
    (h : readScale n exponent cs = .ok (x, rest)) : rest.length ≤ cs.length := by
  unfold readScale at h
  split at h
  · exact Nat.le_of_eq (congrArg _ (rest_of_finish h))
  · split at h
    · exact Nat.le_succ_of_le (length_le_of_readExponent h)
    · exact Nat.le_of_eq (congrArg _ (rest_of_finish h))

theorem length_le_of_readFraction {n : Nat} {exponent : Int} {cs rest : List Char} {x : Float}
    (h : readFraction n exponent cs = .ok (x, rest)) : rest.length ≤ cs.length := by
  rw [readFraction] at h
  split at h
  · cases h
  · split at h
    · cases h
    · exact Nat.le_trans (length_le_of_readScale h)
        (Nat.le_trans (length_skipDigits_le _) (length_takeDigits_le n cs))

theorem length_le_of_readRest {n : Nat} {exponent : Int} {cs rest : List Char} {x : Float}
    (h : readRest n exponent cs = .ok (x, rest)) : rest.length ≤ cs.length := by
  unfold readRest at h
  split at h
  · exact Nat.le_of_eq (congrArg _ (rest_of_finish h))
  · split at h
    · exact Nat.le_succ_of_le (length_le_of_readFraction h)
    · exact length_le_of_readScale h

theorem length_lt_of_readUnsigned {isNegative : Bool} {cs rest : List Char} {number : Number}
    (h : readUnsigned isNegative cs = .ok (number, rest)) : rest.length < cs.length := by
  unfold readUnsigned at h
  split at h
  · cases h
  · next c cs =>
    split at h
    · cases h
    · next digit =>
      have taken : (takeDigits 0 (c :: cs)).2.2.length < (c :: cs).length :=
        length_lt_of_takeDigits (by simpa using digit)
      split at h
      · cases h
      · dsimp only at h
        split at h
        · obtain ⟨⟨x, after⟩, h₁, h₂⟩ := bind_eq_ok.1 h
          cases h₂
          exact Nat.lt_of_le_of_lt
            (Nat.le_trans (length_le_of_readRest h₁) (length_skipDigits_le _)) taken
        · cases h
          exact taken

theorem length_lt_of_readNumber {cs rest : List Char} {number : Number}
    (h : readNumber cs = .ok (number, rest)) : rest.length < cs.length := by
  unfold readNumber at h
  split at h
  · cases h
  · split at h
    · exact Nat.lt_succ_of_lt (length_lt_of_readUnsigned h)
    · exact length_lt_of_readUnsigned h

theorem length_le_of_skipSomeDigits {cs rest : List Char} (h : skipSomeDigits cs = .ok rest) :
    rest.length ≤ cs.length := by
  rw [skipSomeDigits] at h
  split at h <;> cases h
  exact length_skipDigits_le cs

theorem length_le_of_skipScale {cs rest : List Char} (h : skipScale cs = .ok rest) :
    rest.length ≤ cs.length := by
  unfold skipScale at h
  split at h
  · cases h
    exact Nat.le_refl _
  · split at h
    · exact Nat.le_trans (length_le_of_skipSomeDigits h)
        (Nat.le_succ_of_le (length_takeSign_le _))
    · cases h
      exact Nat.le_refl _

theorem length_le_of_skipRest {cs rest : List Char} (h : skipRest cs = .ok rest) :
    rest.length ≤ cs.length := by
  unfold skipRest at h
  split at h
  · cases h
    exact Nat.le_refl _
  · split at h
    · obtain ⟨mid, h₁, h₂⟩ := bind_eq_ok.1 h
      exact Nat.le_trans (length_le_of_skipScale h₂)
        (Nat.le_succ_of_le (length_le_of_skipSomeDigits h₁))
    · exact length_le_of_skipScale h

theorem length_lt_of_skipUnsigned {cs rest : List Char} (h : skipUnsigned cs = .ok rest) :
    rest.length < cs.length := by
  unfold skipUnsigned at h
  split at h
  · cases h
  · split at h
    · cases h
    · split at h
      · cases h
      · exact Nat.lt_succ_of_le (Nat.le_trans (length_le_of_skipRest h) (length_skipDigits_le _))

end AccessRules.Json
