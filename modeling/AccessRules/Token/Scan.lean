import AccessRules.Text.Blank
import AccessRules.Text.Extent
import AccessRules.Token

/-!
# Scanning

`Token.scan` reads a text into tokens from left to right. Blanks separate tokens and are dropped,
parentheses stand alone, operators are written with two characters, and a word is a maximal run
of word characters. The first character that fits none of these ends the scan with an
`unrecognized` token.

## Main definitions

* `Token.isWordChar`: the characters of words
* `Token.scan`: the tokens of a text

## Implementation notes

`scanFrom` carries the byte position of the text that is left, so a position never has to be
recovered from a length. It ends because each step drops at least one character. A word is cut
with `takeWhile` and `dropWhile`, so that it is maximal by the laws of those two.
-/

namespace AccessRules.Token

open Text

/-- The characters of words: ASCII letters and digits, and `_`, `.`, `-`, `*`, `?`. -/
def isWordChar (c : Char) : Bool :=
  c.isAlphanum || c == '_' || c == '.' || c == '-' || c == '*' || c == '?'

/-- The operator that begins with `c` when `cs` follows: an operator is a pair of equal
characters. -/
def operatorAt (c : Char) (cs : List Char) : Option Kind :=
  if cs.head? = some c then
    if c = '|' then some .or else if c = '&' then some .and else none
  else none

/-- The tokens of a text that begins at byte `position`. -/
def scanFrom (position : Nat) : List Char → List Token
  | [] => []
  | c :: cs =>
    if isBlank c then scanFrom (position + c.utf8Size) cs
    else if c = '(' then ⟨.opening, position⟩ :: scanFrom (position + 1) cs
    else if c = ')' then ⟨.closing, position⟩ :: scanFrom (position + 1) cs
    else if isWordChar c then
      let word := c :: cs.takeWhile isWordChar
      ⟨Kind.ofWord word, position⟩ :: scanFrom (position + extent word) (cs.dropWhile isWordChar)
    else
      match operatorAt c cs with
      | some operator => ⟨operator, position⟩ :: scanFrom (position + 2) cs.tail
      | none => [⟨.unrecognized c, position⟩]
termination_by cs => cs.length
decreasing_by
  all_goals simp only [List.length_cons, List.length_tail]
  case _ => omega
  case _ => omega
  case _ => omega
  case _ => exact Nat.lt_succ_of_le (List.dropWhile_sublist isWordChar).length_le
  case _ => omega

/-- The tokens of a text. -/
def scan (text : String) : List Token :=
  scanFrom 0 text.toList

@[simp] theorem scanFrom_nil (position : Nat) : scanFrom position [] = [] := by
  simp [scanFrom]

/-- Word characters are ASCII. -/
theorem toNat_lt_of_isWordChar {c : Char} (h : isWordChar c = true) : c.toNat < 128 := by
  have below : ∀ last : Char, last.toNat < 128 → c.val ≤ last.val → c.toNat < 128 :=
    fun last hlast hle => Nat.lt_of_le_of_lt (UInt32.le_iff_toNat_le.mp hle) hlast
  simp only [isWordChar, Bool.or_eq_true, beq_iff_eq] at h
  rcases h with (((((h | rfl) | rfl) | rfl) | rfl) | rfl)
  · rcases Bool.or_eq_true_iff.mp h with hletter | hdigit
    · rcases Bool.or_eq_true_iff.mp hletter with hupper | hlower
      · exact below 'Z' (by decide) (of_decide_eq_true hupper).2
      · exact below 'z' (by decide) (of_decide_eq_true (Bool.and_eq_true_iff.mp hlower).2)
    · exact below '9' (by decide) (of_decide_eq_true (Bool.and_eq_true_iff.mp hdigit).2)
  all_goals decide

/-- Word characters are no blanks. -/
theorem isBlank_of_isWordChar {c : Char} (h : isWordChar c = true) : isBlank c = false := by
  have ascii : ∀ n < 128, isWordChar (Char.ofNat n) = true → isBlank (Char.ofNat n) = false := by
    decide +kernel
  simpa using ascii c.toNat (toNat_lt_of_isWordChar h) (by simpa using h)

example : (scan "a && b $ c").map Token.kind =
    [.pattern "a", .and, .pattern "b", .unrecognized '$'] := by decide +kernel
example : (scan "  a && b?").map Token.position = [2, 4, 7] := by decide +kernel

end AccessRules.Token
