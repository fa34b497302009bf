/-!
# White space

The characters that separate the words of an expression and that are trimmed from the ends of
a text. The set is the `White_Space` property of Unicode, which is wider than the ASCII blanks
and narrower than "looks empty": zero-width characters and the information separators are not
in it.

## Implementation notes

Trimming is defined on character lists, where its laws are list laws; `trim` only converts.
-/

namespace AccessRules.Text

/-- The `White_Space` property. -/
def isBlank (c : Char) : Bool :=
  let n := c.toNat
  (0x09 ≤ n && n ≤ 0x0D) || n == 0x20 || n == 0x85 || n == 0xA0 || n == 0x1680 ||
    (0x2000 ≤ n && n ≤ 0x200A) || n == 0x2028 || n == 0x2029 || n == 0x202F || n == 0x205F ||
    n == 0x3000

/-- The characters of a text without the blanks at either end. -/
def trimChars (cs : List Char) : List Char :=
  ((cs.dropWhile isBlank).reverse.dropWhile isBlank).reverse

/-- A text without the blanks at either end. -/
def trim (s : String) : String :=
  String.ofList (trimChars s.toList)

@[simp] theorem toList_trim (s : String) : (trim s).toList = trimChars s.toList := by
  simp [trim]

/-- Blanks at the front are dropped, whatever follows. -/
theorem trimChars_append_of_blank {pre : List Char} (h : ∀ c ∈ pre, isBlank c = true)
    (cs : List Char) : trimChars (pre ++ cs) = trimChars cs := by
  rw [trimChars, List.dropWhile_append_of_pos h, trimChars]

/-- A text that begins and ends with characters other than blanks is trimmed already. -/
theorem trimChars_eq_self {cs : List Char} (hhead : ∀ c ∈ cs.head?, isBlank c = false)
    (hlast : ∀ c ∈ cs.getLast?, isBlank c = false) : trimChars cs = cs := by
  have front : ∀ l : List Char, (∀ c ∈ l.head?, isBlank c = false) → l.dropWhile isBlank = l := by
    intro l hl
    cases l with
    | nil => rfl
    | cons a l => rw [List.dropWhile_cons_of_neg]; simp [hl a (by simp)]
  rw [trimChars, front cs hhead, front cs.reverse (by simpa using hlast), List.reverse_reverse]

/-- Trimming keeps a first character that is not a blank. -/
theorem head?_trimChars_of_not_blank {c : Char} (h : isBlank c = false) (cs : List Char) :
    (trimChars (c :: cs)).head? = some c := by
  have hkeep : ∀ l, (c :: l).dropWhile isBlank = c :: l := by
    intro l
    rw [List.dropWhile_cons_of_neg]
    simp [h]
  rw [trimChars, hkeep, List.head?_reverse, List.reverse_cons, List.dropWhile_append]
  split
  · rw [hkeep]
    rfl
  · exact List.getLast?_concat

end AccessRules.Text
