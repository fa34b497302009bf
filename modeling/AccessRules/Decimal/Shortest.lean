/-!
# Shortest decimals

The text of a floating-point number has the fewest digits that still read back as the number,
and of those the digits nearest to it. Numbers of moderate size are written positionally, all
others with an exponent.

## Implementation notes

A finite number is `m * 2 ^ q`. The decimals that read back as it are those in the interval
between the midpoints to its two neighbours, ends included when `m` is even. All of this is exact
arithmetic on natural numbers: a grid of decimals has a point in the interval only if one of the
two grid points around the number is in it, so one division decides each number of digits.
-/

namespace AccessRules.Decimal.Shortest

/-- A positive number `mantissa * 2 ^ exponent` of the binary format. -/
structure Binary where
  mantissa : Nat
  exponent : Int
  /-- The number is the least of its binade, so the neighbour below is half as far away. -/
  isLowest : Bool

/-- The digits of a decimal, and the power of ten of the first one. -/
structure Digits where
  digits : List Char
  power : Int

/-- The binary number with these bits, the sign left out. -/
def Binary.ofBits (bits : Nat) : Binary :=
  let field : Nat := bits / Nat.pow 2 52 % Nat.pow 2 11
  let fraction : Nat := bits % Nat.pow 2 52
  if field = 0 then ⟨fraction, -1074, false⟩
  else ⟨Nat.pow 2 52 + fraction, (field : Int) - 1075, fraction = 0 && field != 1⟩

/-- Natural numbers in the ratio `value : unit`, and the distances in the same unit from the
value to the ends of the interval that rounds to it. -/
structure Scaled where
  value : Nat
  unit : Nat
  below : Nat
  above : Nat

/-- A binary number measured in units of `10 ^ power`. -/
def Binary.scale (b : Binary) (power : Int) : Scaled :=
  let twos := Nat.pow 2 b.exponent.toNat
  let halves := Nat.pow 2 (-b.exponent).toNat
  let tens := Nat.pow 10 power.toNat
  let tenths := Nat.pow 10 (-power).toNat
  let step := twos * tenths
  ⟨4 * b.mantissa * step, 4 * halves * tens, if b.isLowest then step else 2 * step, 2 * step⟩

/-- The multiple of the unit that reads back as the number and is nearest to it. Of two that are
equally near, the even one. -/
def Scaled.nearest? (s : Scaled) (closed : Bool) : Option Nat :=
  let low := s.value / s.unit
  let down := s.value - low * s.unit
  let up := s.unit - down
  let admits (distance reach : Nat) : Bool := if closed then distance ≤ reach else distance < reach
  match admits down s.below, admits up s.above with
  | true, true =>
    if down < up || (down == up && low % 2 == 0) then some low else some (low + 1)
  | true, false => some low
  | false, true => some (low + 1)
  | false, false => none

/-- The power of ten of the first digit of a positive number, searched upward from `power`. -/
def leadingPower (b : Binary) (power : Int) : Nat → Int
  | 0 => power
  | fuel + 1 =>
    let s := b.scale (power + 1)
    if s.unit ≤ s.value then leadingPower b (power + 1) fuel else power

/-- The fewest digits of a number whose first digit has the power `top`. -/
def digitsFrom (b : Binary) (top : Int) (count : Nat) : Nat → Digits
  | 0 => ⟨['0'], 0⟩
  | fuel + 1 =>
    let power := top - count
    match (b.scale power).nearest? (b.mantissa % 2 == 0) with
    | some n =>
      let digits := Nat.toDigits 10 n
      ⟨digits, power + digits.length - 1⟩
    | none => digitsFrom b top (count + 1) fuel

/-- Digits without the zeros at their end. -/
def Digits.trim (d : Digits) : Digits :=
  { d with digits := (d.digits.reverse.dropWhile (· == '0')).reverse }

/-- The shortest decimal of a positive number. No number is below `10 ^ -324` or has a first
digit above `10 ^ 308`, and seventeen digits always read back. -/
def Binary.shortest (b : Binary) : Digits :=
  (digitsFrom b (leadingPower b (-324) 633) 0 18).trim

/-- The powers of ten that are written positionally. -/
def isPositional (power : Int) : Bool :=
  -5 ≤ power && power ≤ 15

/-- An exponent: always a sign, and as few digits as it has. -/
def exponentText (power : Int) : List Char :=
  (if power < 0 then '-' else '+') :: Nat.toDigits 10 power.natAbs

/-- The text of a decimal. Positionally, there is at least one digit after the point. -/
def Digits.text (d : Digits) : List Char :=
  if isPositional d.power then
    if d.power < 0 then
      ['0', '.'] ++ List.replicate (d.power.natAbs - 1) '0' ++ d.digits
    else
      let whole := d.power.natAbs + 1
      let padded := d.digits ++ List.replicate (whole - d.digits.length) '0'
      let rest := padded.drop whole
      padded.take whole ++ ['.'] ++ if rest.isEmpty then ['0'] else rest
  else
    let rest := d.digits.tail
    d.digits.take 1 ++ (if rest.isEmpty then [] else '.' :: rest) ++ 'e' :: exponentText d.power

/-- The text of a finite floating-point number. -/
def text (x : Float) : String :=
  let bits := x.toBits.toNat
  let sign := if Nat.pow 2 63 ≤ bits then ['-'] else []
  let b := Binary.ofBits (bits % Nat.pow 2 63)
  String.ofList (sign ++ if b.mantissa = 0 then ['0', '.', '0'] else b.shortest.text)

end AccessRules.Decimal.Shortest
