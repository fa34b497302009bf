/-!
# Fields

A text is cut into fields at every separator. Fields may be empty, and a text without a separator
is one field, so the fields and the separators between them are the text.

## Main statements

* `intercalate_fieldChars`: the fields and the separators between them are the text
* `fieldChars_append`: what stands on either side of a separator has its own fields
* `fieldChars_eq_splitOn`: the fields are the parts that the library splits a list into
-/

namespace AccessRules.Text

/-- The fields of a text. -/
def fieldChars (separator : Char) : List Char → List (List Char)
  | [] => [[]]
  | c :: cs =>
    if c = separator then [] :: fieldChars separator cs
    else
      match fieldChars separator cs with
      | [] => [[c]]
      | field :: fields => (c :: field) :: fields

/-- The fields of a text. -/
def fields (separator : Char) (s : String) : List String :=
  (fieldChars separator s.toList).map String.ofList

theorem fieldChars_ne_nil (separator : Char) (cs : List Char) : fieldChars separator cs ≠ [] := by
  cases cs with
  | nil => simp [fieldChars]
  | cons c cs =>
    simp only [fieldChars]
    split
    · simp
    · split <;> simp

/-- The fields and the separators between them are the text. -/
theorem intercalate_fieldChars (separator : Char) (cs : List Char) :
    [separator].intercalate (fieldChars separator cs) = cs := by
  induction cs with
  | nil => rfl
  | cons c cs ih =>
    simp only [fieldChars]
    split
    · next h =>
      rw [List.intercalate_cons_of_ne_nil (fieldChars_ne_nil separator cs), ih, h]
      rfl
    · split
      · next h => exact absurd h (fieldChars_ne_nil separator cs)
      · next field fields h =>
        rw [h] at ih
        cases fields with
        | nil => simpa using ih
        | cons field' fields =>
          rw [List.intercalate_cons_cons] at ih ⊢
          simp [← ih]

/-- What stands on either side of a separator has its own fields. -/
theorem fieldChars_append (separator : Char) (xs ys : List Char) :
    fieldChars separator (xs ++ separator :: ys) =
      fieldChars separator xs ++ fieldChars separator ys := by
  induction xs with
  | nil => simp [fieldChars]
  | cons c cs ih =>
    simp only [List.cons_append, fieldChars]
    split
    · rw [ih, List.cons_append]
    · rw [ih]
      cases hfields : fieldChars separator cs with
      | nil => exact absurd hfields (fieldChars_ne_nil separator cs)
      | cons field fields => rfl

/-- The fields are the parts that the library splits a list into. -/
theorem fieldChars_eq_splitOn (separator : Char) (cs : List Char) :
    fieldChars separator cs = cs.splitOn separator := by
  induction cs with
  | nil => rfl
  | cons c cs ih =>
    have hsplit := List.splitOnP_cons_eq_if_modifyHead (p := (· == separator)) c cs
    rw [List.splitOn_eq_splitOnP] at ih ⊢
    rw [fieldChars, hsplit, ← ih]
    simp only [beq_iff_eq]
    split
    · rfl
    · cases hfields : fieldChars separator cs with
      | nil => exact absurd hfields (fieldChars_ne_nil separator cs)
      | cons field fields => rfl

example : fields ',' "a,,b" = ["a", "", "b"] := by decide +kernel

end AccessRules.Text
