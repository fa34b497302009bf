import AccessRules.Spelling
import AccessRules.Token.Scan

/-!
# Texts that are spelled normally

A piece of a text keeps its spelling when it stands alone and when it stands behind any other
piece. Normal spelling is then a property of the pieces that a text is put together from.

## Main statements

* `Normal.append`: two adjoining texts that are spelled normally
* `isOperatorChar_of_isWordChar`, `isOperatorChar_of_isBlank`: words and blanks have no operators
-/

namespace AccessRules.Spelling

/-- A text that is spelled normally whatever stands before it. -/
def Normal (cs : List Char) : Prop :=
  ∀ last, normalizeFrom last cs = cs

theorem Normal.append {xs ys : List Char} (hxs : Normal xs) (hys : Normal ys) :
    Normal (xs ++ ys) := by
  intro last
  rw [normalizeFrom_append, hxs, hys]

theorem normal_of_forall {cs : List Char} (h : ∀ c ∈ cs, isOperatorChar c = false) : Normal cs :=
  normalizeFrom_of_forall h

theorem normal_of_all {cs : List Char} (h : cs.all (fun c => !isOperatorChar c) = true) :
    Normal cs :=
  normal_of_forall fun c hc => by simpa using List.all_eq_true.mp h c hc

theorem Normal.normalize_eq {text : String} (h : Normal text.toList) : normalize text = text := by
  rw [normalize, normalizeChars, h, String.ofList_toList]

/-! ### Characters that are no operators -/

theorem isOperatorChar_eq_true {c : Char} : isOperatorChar c = true ↔ c = '|' ∨ c = '&' := by
  simp [isOperatorChar]

theorem isOperatorChar_of_isWordChar {c : Char} (h : Token.isWordChar c = true) :
    isOperatorChar c = false := by
  rw [← Bool.not_eq_true, isOperatorChar_eq_true]
  rintro (rfl | rfl) <;> exact absurd h (by decide)

theorem isOperatorChar_of_isBlank {c : Char} (h : Text.isBlank c = true) :
    isOperatorChar c = false := by
  rw [← Bool.not_eq_true, isOperatorChar_eq_true]
  rintro (rfl | rfl) <;> exact absurd h (by decide)

end AccessRules.Spelling
