/-!
# Decimal counts

Counts are written as ASCII digits, with any number of zeros before them and possibly a plus sign
in front. A count is below 2 ^ 64.

## Main statements

* `count?_toDigits`: the digits of a count read back as the count
-/

namespace AccessRules.Decimal

/-- The number that digits write. -/
def ofDigits (cs : List Char) : Nat :=
  Nat.ofDigitChars 10 cs 0

/-- The count that a text of digits writes. -/
def unsigned? (cs : List Char) : Option UInt64 :=
  if cs ≠ [] ∧ cs.all Char.isDigit then
    let n := ofDigits cs
    if n < UInt64.size then some (.ofNat n) else none
  else none

/-- The count that a text writes, with or without a plus sign. -/
def count? : List Char → Option UInt64
  | '+' :: cs => unsigned? cs
  | cs => unsigned? cs

theorem unsigned?_toDigits (n : UInt64) :
    unsigned? (Nat.toDigits 10 n.toNat) = some n := by
  have digits : (Nat.toDigits 10 n.toNat).all Char.isDigit = true :=
    List.all_eq_true.2 fun _ => Nat.isDigit_of_mem_toDigits (by decide) (by decide)
  have value : ofDigits (Nat.toDigits 10 n.toNat) = n.toNat :=
    Nat.ofDigitChars_toDigits (by decide) (by decide)
  simp [unsigned?, digits, value, Nat.toDigits_ne_nil, n.toNat_lt_size]

/-- The digits of a count read back as the count. -/
theorem count?_toDigits (n : UInt64) : count? (Nat.toDigits 10 n.toNat) = some n := by
  unfold count?
  split
  · next cs h =>
    have plus : '+'.isDigit = true :=
      Nat.isDigit_of_mem_toDigits (by decide) (by decide) (h ▸ List.mem_cons_self)
    exact absurd plus (by decide)
  · exact unsigned?_toDigits n

example : count? "+007".toList = some 7 := by decide +kernel
example : count? "18446744073709551616".toList = none := by decide +kernel
example : count? "-1".toList = none := by decide +kernel

end AccessRules.Decimal
