import AccessRules.Decision
import AccessRules.Proofs.Reading
import AccessRules.Proofs.Scanning
import AccessRules.Proofs.Spelling

/-!
# One word with blanks around it

Some questions are answered from the trimmed text alone, before anything is scanned. They have to
agree with the scan, which skips blanks at its own pace.

## Main statements

* `exists_padding`: a text is what is left of it when it is trimmed, between blanks
* `tokensOf_of_trimChars`: a padded word is one token
* `ofText_of_literal?`: a padded truth value spells that truth value, unless it is too long
* `shortcut?_eq_none_iff`: the patterns that are no shortcuts
-/

namespace AccessRules

open Text

/-- Blanks at the end are dropped, whatever stands before them. -/
theorem Text.trimChars_append_blanks {post : List Char} (h : ∀ c ∈ post, isBlank c = true)
    (cs : List Char) : trimChars (cs ++ post) = trimChars cs := by
  have hreverse : ∀ c ∈ post.reverse, isBlank c = true := fun c hc => h c (List.mem_reverse.mp hc)
  rw [trimChars, trimChars, List.dropWhile_append]
  split
  · next hcs => rw [List.isEmpty_iff.mp hcs, List.dropWhile_eq_nil_iff.mpr h]
  · rw [List.reverse_append, List.dropWhile_append_of_pos hreverse]

/-- A text is its trimmed characters with blanks at either side. -/
theorem Text.exists_padding (cs : List Char) :
    ∃ pre post, cs = pre ++ (trimChars cs ++ post) ∧
      (∀ c ∈ pre, isBlank c = true) ∧ ∀ c ∈ post, isBlank c = true := by
  refine ⟨cs.takeWhile isBlank, ((cs.dropWhile isBlank).reverse.takeWhile isBlank).reverse,
    ?_, ?_, ?_⟩
  · rw [trimChars, ← List.reverse_append, List.takeWhile_append_dropWhile, List.reverse_reverse,
      List.takeWhile_append_dropWhile]
  · intro c hc
    exact List.mem_takeWhile_imp hc
  · intro c hc
    exact List.mem_takeWhile_imp (List.mem_reverse.mp hc)

/-- A text that was trimmed stays as it is when it is trimmed again. -/
theorem Text.trimChars_trimChars (cs : List Char) : trimChars (trimChars cs) = trimChars cs := by
  obtain ⟨pre, post, hcs, hpre, hpost⟩ := exists_padding cs
  calc trimChars (trimChars cs)
      = trimChars (pre ++ (trimChars cs ++ post)) := by
        rw [trimChars_append_of_blank hpre, trimChars_append_blanks hpost]
    _ = trimChars cs := by rw [← hcs]

theorem Text.trim_trim (s : String) : trim (trim s) = trim s := by
  rw [← String.toList_inj, toList_trim, toList_trim, trimChars_trimChars]

namespace Expr

open Token (isWordChar)

/-- **A padded word is one token.** -/
theorem tokensOf_of_trimChars {text : String} (hne : trimChars text.toList ≠ [])
    (hword : ∀ c ∈ trimChars text.toList, isWordChar c = true) :
    ∃ position, tokensOf text = [⟨Token.Kind.ofWord (trimChars text.toList), position⟩] := by
  obtain ⟨pre, post, htext, hpre, hpost⟩ := exists_padding text.toList
  generalize trimChars text.toList = word at *
  have hnormal : Spelling.Normal text.toList := by
    have hpre' : Spelling.Normal pre :=
      Spelling.normal_of_forall fun c hc => Spelling.isOperatorChar_of_isBlank (hpre c hc)
    have hword' : Spelling.Normal word :=
      Spelling.normal_of_forall fun c hc => Spelling.isOperatorChar_of_isWordChar (hword c hc)
    have hpost' : Spelling.Normal post :=
      Spelling.normal_of_forall fun c hc => Spelling.isOperatorChar_of_isBlank (hpost c hc)
    rw [htext]
    exact hpre'.append (hword'.append hpost')
  have hend : ∀ c ∈ post.head?, isWordChar c = false := fun c hc =>
    Token.isWordChar_of_isBlank (hpost c (List.mem_of_mem_head? hc))
  refine ⟨0 + extent pre, ?_⟩
  rw [tokensOf, hnormal.normalize_eq, Token.scan, htext, Token.scanFrom_append_of_blank hpre,
    Token.scanFrom_word_append hne hword hend, Token.scanFrom_of_blank hpost]

/-- What a text is when it is trimmed, if it is read as a truth value. -/
theorem trimChars_of_literal? {text : String} {value : Bool} (h : literal? text = some value) :
    trimChars text.toList = (literal value).text.toList := by
  rw [literal?] at h
  split at h
  · next htrim =>
    cases h
    exact htrim
  · next htrim =>
    cases h
    exact htrim
  · simp at h

/-- **A padded truth value spells that truth value**, unless it is too long. -/
theorem ofText_of_literal? {text : String} {value : Bool} (h : literal? text = some value)
    (settings : Settings) :
    ofText settings text =
      if settings.maxLength.toNat < text.utf8ByteSize then
        .error (.tooLong text.utf8ByteSize settings.maxLength.toNat)
      else .ok (.literal value) := by
  have htrim := trimChars_of_literal? h
  have hword : trimChars text.toList ≠ [] ∧ ∀ c ∈ trimChars text.toList, isWordChar c = true := by
    rw [htrim]
    cases value <;> exact ⟨by decide, List.all_eq_true.mp (by decide)⟩
  have hkind : Token.Kind.ofWord (trimChars text.toList) = .literal value := by
    rw [htrim]
    cases value <;> rfl
  obtain ⟨position, htokens⟩ := tokensOf_of_trimChars hword.1 hword.2
  have hderives : Derives .disjunction 0 (literal value) (tokensOf text) := by
    rw [htokens, hkind]
    exact Derives.disjunction_of_term (.literal rfl)
  rw [ofText, ofTokens_of_derives hderives, if_pos (Nat.zero_le _)]

end Expr

/-- A trimmed pattern is no shortcut if it is neither a truth value nor the universal wildcard. -/
theorem Decision.shortcut?_eq_none_iff {pattern : String} (h : trim pattern = pattern) :
    shortcut? pattern = none ↔ pattern ∉ ["true", "false", "*"] := by
  have hchars : trimChars pattern.toList = pattern.toList := by rw [← toList_trim, h]
  constructor
  · intro hnone hmem
    have hshortcut : ∀ p ∈ ["true", "false", "*"], (shortcut? p).isSome = true := by
      decide +kernel
    simpa [hnone] using hshortcut pattern hmem
  · intro hmem
    have hliteral : literal? pattern = none := by
      cases hvalue : literal? pattern with
      | none => rfl
      | some value =>
        have htext := Expr.trimChars_of_literal? hvalue
        rw [hchars, String.toList_inj] at htext
        rw [htext] at hmem
        cases value <;> simp [Expr.text] at hmem
    have hwildcard : ¬ isWildcard pattern = true := by
      intro hstar
      have hstar' : pattern.toList = "*".toList := by simpa [isWildcard, hchars] using hstar
      simp [String.toList_inj.mp hstar'] at hmem
    rw [shortcut?, hliteral]
    exact if_neg hwildcard

end AccessRules
