/-!
# The normal spelling of operators

An expression may spell its operators with any number of characters: `a | b`, `a || b` and
`a ||| b` say the same. The normal spelling writes every maximal run of one operator character
as exactly two of it and leaves all else alone.

## Main statements

* `normalizeFrom_append`: the normal spelling of a concatenation
* `normalizeFrom_of_forall`: a text without operators is left alone

## Implementation notes

Whether a character begins a run depends only on the character before it, so the
normal spelling is one pass that carries the previous character. The normal spelling of a
concatenation then splits where the texts meet; see `normalizeFrom_append`.
-/

namespace AccessRules.Spelling

/-- The characters that operators are written with. -/
def isOperatorChar (c : Char) : Bool :=
  c == '|' || c == '&'

/-- The normal spelling of a text that follows the character `last`, if any. The first character
of a run stands for the whole run. -/
def normalizeFrom (last : Option Char) : List Char → List Char
  | [] => []
  | c :: cs =>
    if isOperatorChar c then
      if last = some c then normalizeFrom last cs
      else c :: c :: normalizeFrom (some c) cs
    else c :: normalizeFrom (some c) cs

/-- The normal spelling of a text. -/
def normalizeChars (cs : List Char) : List Char :=
  normalizeFrom none cs

/-- The normal spelling of an expression. -/
def normalize (raw : String) : String :=
  String.ofList (normalizeChars raw.toList)

@[simp] theorem toList_normalize (raw : String) :
    (normalize raw).toList = normalizeChars raw.toList := by
  simp [normalize]

/-- The second of two adjoining texts is spelled as what follows the last character of the
first. -/
theorem normalizeFrom_append (last : Option Char) (xs ys : List Char) :
    normalizeFrom last (xs ++ ys) =
      normalizeFrom last xs ++ normalizeFrom (xs.getLast?.or last) ys := by
  induction xs generalizing last with
  | nil => simp [normalizeFrom]
  | cons c cs ih =>
    have hlast : (c :: cs).getLast?.or last = cs.getLast?.or (some c) := by
      cases cs with
      | nil => simp
      | cons d ds => simp [List.getLast?_eq_some_getLast]
    simp only [List.cons_append, normalizeFrom, hlast]
    split
    · split
      · next h => rw [ih, h]
      · simp [ih]
    · simp [ih]

/-- A text without operator characters is its own normal spelling. -/
theorem normalizeFrom_of_forall {cs : List Char} (h : ∀ c ∈ cs, isOperatorChar c = false)
    (last : Option Char) : normalizeFrom last cs = cs := by
  induction cs generalizing last with
  | nil => rfl
  | cons c cs ih =>
    have hc := h c (by simp)
    simp [normalizeFrom, hc, ih fun d hd => h d (by simp [hd])]

example : normalize "a | b" = "a || b" := by decide +kernel
example : normalize "a |&&& b" = "a ||&& b" := by decide +kernel
example : normalize "a | | b" = "a || || b" := by decide +kernel

end AccessRules.Spelling
