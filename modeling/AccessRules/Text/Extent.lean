/-!
# Extent of a text in bytes

Lengths and positions are measured in bytes of UTF-8. Scanners walk character lists and carry
the byte position along, so the extent is defined on character lists and agrees with the size of
the string.
-/

namespace AccessRules.Text

/-- The number of bytes that a text takes in UTF-8. -/
def extent : List Char → Nat
  | [] => 0
  | c :: cs => c.utf8Size + extent cs

@[simp] theorem extent_nil : extent [] = 0 := rfl

@[simp] theorem extent_cons (c : Char) (cs : List Char) :
    extent (c :: cs) = c.utf8Size + extent cs := rfl

@[simp] theorem extent_append (xs ys : List Char) :
    extent (xs ++ ys) = extent xs + extent ys := by
  induction xs with
  | nil => simp
  | cons c cs ih => simp [ih, Nat.add_assoc]

/-- Every character takes a byte, so only the empty text has extent zero. -/
theorem extent_eq_zero {cs : List Char} : extent cs = 0 ↔ cs = [] := by
  cases cs with
  | nil => simp
  | cons c cs => simp [Nat.ne_of_gt c.utf8Size_pos]

/-- The extent of the characters of a string is its size. -/
theorem extent_toList (s : String) : extent s.toList = s.utf8ByteSize := by
  have ofList : ∀ cs : List Char, (String.ofList cs).utf8ByteSize = extent cs := by
    intro cs
    induction cs with
    | nil => rfl
    | cons c cs ih =>
      have : String.ofList (c :: cs) = String.singleton c ++ String.ofList cs := by
        apply String.toList_inj.1
        simp
      rw [this, String.utf8ByteSize_append, ih]
      simp
  rw [← ofList, String.ofList_toList]

end AccessRules.Text
