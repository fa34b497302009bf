import AccessRules.Decimal.Shortest

/-!
# JSON numbers

A number of a JSON text is kept exactly where it is an integer that 64 bits can hold, and as a
floating-point number otherwise.
-/

namespace AccessRules.Json

/-- A number that was read. -/
inductive Number where
  /-- A natural number below `2 ^ 64`. -/
  | natural (value : Nat)
  /-- The integer `-magnitude`, with a magnitude from 1 to `2 ^ 63`. -/
  | negative (magnitude : Nat)
  /-- Any other number, rounded. -/
  | floating (value : Float)

namespace Number

/-- How a message names a number. -/
def text : Number → String
  | natural value => "integer \x60" ++ toString value ++ "\x60"
  | negative magnitude => "integer \x60-" ++ toString magnitude ++ "\x60"
  | floating value => "floating point \x60" ++ Decimal.Shortest.text value ++ "\x60"

/-! ### Rounding -/

/-- A natural number below `2 ^ 64`, rounded. -/
def round (n : Nat) : Float :=
  (UInt64.ofNat n).toFloat

/-- A power of ten, rounded. -/
def powerOfTen (n : Nat) : Float :=
  .ofScientific 1 false n

/-- The largest exponent of ten in the range of the format. -/
def maxPower : Nat := 308

/-- A number divided by a power of ten, in steps that are in range. -/
def divide (x : Float) (power : Nat) : Float :=
  if power ≤ maxPower then x / powerOfTen power
  else if x == 0 then x
  else divide (x / powerOfTen maxPower) (power - maxPower)
termination_by power
decreasing_by
  have : 0 < maxPower := by decide
  omega

/-- `significand * 10 ^ exponent`, rounded after each operation, unless it is too large. -/
def assemble? (significand : Nat) (exponent : Int) : Option Float :=
  let x := round significand
  if exponent < 0 then some (divide x exponent.natAbs)
  else if exponent ≤ maxPower then
    let y := x * powerOfTen exponent.natAbs
    if y.isInf then none else some y
  else if x == 0 then some x
  else none

/-! ### Signs -/

/-- The number of an integer below `2 ^ 64` without its sign. Zero keeps the sign, and so is no
integer when it is negative. -/
def ofInteger (isNegative : Bool) (n : Nat) : Number :=
  if isNegative then
    if n = 0 ∨ Nat.pow 2 63 < n then floating (-round n) else negative n
  else natural n

/-- The number of a floating-point number without its sign. -/
def ofFloat (isNegative : Bool) (x : Float) : Number :=
  floating (if isNegative then -x else x)

end Number

end AccessRules.Json
