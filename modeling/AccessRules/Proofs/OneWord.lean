import AccessRules.Proofs.Account
import AccessRules.Proofs.GlobRegex
import AccessRules.Proofs.Lexemes

/-!
# A pattern is an expression too

A text that is one word may be put to an engine as a pattern or as an expression. The two are
decided along different ways: a pattern is trimmed and matched, an expression is spelled normally,
scanned, read and evaluated, and either way has shortcuts of its own for truth values and for the
universal wildcard. A caller does not have to know which of the two a word is meant as.

## Main definitions

* `Word.Pads`: a text is a word with blanks around it
* `Word.expr`: the expression that a word is
* `Decision.Settles`: every way to ask about a text gives this answer

## Main statements

* `Word.pads_iff_trim_eq`: a text is a padded word if it is the word once it is trimmed
* `Word.ofText_of_pads`: a padded word spells the expression that the word is
* `Decision.settles_of_pads`: every way to ask about a padded word gives the same answer

## Implementation notes

All the ways are compared with `holds`, the answer about the text as a pattern. Nothing is asked
of a word beyond its characters, so words that have no glob are among those that are decided alike:
they hold for nobody and match nothing.
-/

namespace AccessRules

open Text

namespace Word

/-! ### Padded words -/

/-- The text that is just the word. -/
def text (w : Word) : String :=
  String.ofList w.chars

/-- A text is the word with blanks around it. -/
def Pads (w : Word) (text : String) : Prop :=
  ∃ pre post, text.toList = pre ++ (w.chars ++ post) ∧
    (∀ c ∈ pre, isBlank c = true) ∧ ∀ c ∈ post, isBlank c = true

@[simp] theorem toList_text (w : Word) : w.text.toList = w.chars := by
  simp [text]

/-- A word has no blanks to be trimmed. -/
@[simp] theorem trimChars_chars (w : Word) : trimChars w.chars = w.chars :=
  trimChars_eq_self
    (fun c hc => Token.isBlank_of_isWordChar (w.wordChars c (List.mem_of_mem_head? hc)))
    fun c hc => Token.isBlank_of_isWordChar (w.wordChars c (List.mem_of_mem_getLast? hc))

@[simp] theorem trim_text (w : Word) : trim w.text = w.text := by
  rw [← String.toList_inj, toList_trim, toList_text, trimChars_chars]

/-- **A text is a padded word if it is the word once it is trimmed.** -/
theorem pads_iff_trim_eq {w : Word} {padded : String} : w.Pads padded ↔ trim padded = w.text := by
  rw [← String.toList_inj, toList_trim, toList_text]
  constructor
  · rintro ⟨pre, post, hpadded, hpre, hpost⟩
    rw [hpadded, trimChars_append_of_blank hpre, trimChars_append_blanks hpost, trimChars_chars]
  · intro htrim
    obtain ⟨pre, post, hpadded, hpre, hpost⟩ := exists_padding padded.toList
    rw [htrim] at hpadded
    exact ⟨pre, post, hpadded, hpre, hpost⟩

instance (w : Word) (padded : String) : Decidable (w.Pads padded) :=
  decidable_of_iff _ pads_iff_trim_eq.symm

/-! ### The expression of a word -/

/-- The expression that a word is: a truth value or a pattern. -/
def expr (w : Word) : Expr :=
  match literal? w.text with
  | some value => .literal value
  | none => .pattern w.text

/-- The scan finds truth values where a word is a truth value. -/
theorem ofWord_chars (w : Word) :
    Token.Kind.ofWord w.chars =
      match literal? w.text with
      | some value => .literal value
      | none => .pattern w.text := by
  rw [literal?, toList_text, trimChars_chars, Token.Kind.ofWord]
  by_cases htrue : w.chars = ['t', 'r', 'u', 'e']
  · simp [htrue]
  · by_cases hfalse : w.chars = ['f', 'a', 'l', 's', 'e']
    · simp [hfalse]
    · rw [if_neg htrue, if_neg hfalse]
      split
      · next h => split at h <;> contradiction
      · rfl

/-- The token of a word is a term for the expression that the word is. -/
theorem derives_expr (w : Word) (position : Nat) :
    Expr.Derives .term 0 w.expr [⟨Token.Kind.ofWord w.chars, position⟩] := by
  rw [expr, ofWord_chars]
  cases literal? w.text with
  | some value => exact .literal rfl
  | none => exact .pattern rfl

/-- **A padded word spells the expression that the word is**, under every limit that it fits. -/
theorem ofText_of_pads {settings : Settings} {w : Word} {padded : String} (h : w.Pads padded)
    (hle : padded.utf8ByteSize ≤ settings.maxLength.toNat) :
    Expr.ofText settings padded = .ok w.expr := by
  have htrim : trimChars padded.toList = w.chars := by
    rw [← toList_trim, pads_iff_trim_eq.mp h, toList_text]
  obtain ⟨position, htokens⟩ := Expr.tokensOf_of_trimChars (htrim ▸ w.ne_nil) (htrim ▸ w.wordChars)
  have hderives : Expr.Derives .disjunction 0 w.expr (Expr.tokensOf padded) := by
    rw [htokens, htrim]
    exact (w.derives_expr position).disjunction_of_term
  exact Expr.ofText_of_derives hle hderives (Nat.zero_le _)

end Word

namespace Decision

section

variable [RegexLibrary]

/-! ### One answer -/

/-- Every way to ask about a text gives this answer, whatever the cache holds: to evaluate the text
or the expression that it spells, to match it as a pattern, to ask whether any or all of it alone
hold, and to have the decision explained. -/
structure Settles (settings : Settings) (granted : List String) (text : String) (answer : Bool) :
    Prop where
  evaluateText : (Decision.evaluateText settings granted text).Answers answer
  evaluate : ∃ e, Expr.ofText settings text = .ok e ∧ (Decision.evaluate granted e).Answers answer
  matchesPattern : (Decision.matchesPattern granted text).Answers answer
  hasAny : (Decision.hasAny settings granted [text]).Answers answer
  hasAll : (Decision.hasAll settings granted [text]).Answers answer
  explanation :
    (Explanation.granted <$> Explanation.ofText settings granted text).Answers answer

variable {settings : Settings} {w : Word} {padded : String}

/-- The blanks around a pattern do not count. -/
theorem holds_of_pads (h : w.Pads padded) (granted : List String) :
    holds granted padded = holds granted w.text := by
  rw [holds, holds, Word.pads_iff_trim_eq.mp h, w.trim_text]

/-- A word as an expression holds as it does as a pattern. -/
theorem evaluate_expr (w : Word) (granted : List String) :
    w.expr.evaluate (holds granted) = holds granted w.text := by
  rw [Word.expr]
  cases hliteral : literal? w.text with
  | some value => simp [holds, shortcut?, hliteral]
  | none => exact Expr.evaluate_pattern _ _

/-- A padded word as a text holds as it does as a pattern. -/
theorem decides_of_pads (h : w.Pads padded)
    (hle : padded.utf8ByteSize ≤ settings.maxLength.toNat) (granted : List String) :
    decides settings granted padded = holds granted padded := by
  rw [decides_of_ofText (Word.ofText_of_pads h hle), evaluate_expr, holds_of_pads h]

/-- Without a shortcut a pattern holds if it matches some granted name. -/
theorem holds_eq_true_iff_matched_ne_nil {pattern : String}
    (h : shortcut? (Text.trim pattern) = none) (granted : List String) :
    holds granted pattern = true ↔ matched granted pattern ≠ [] := by
  rw [holds, h, matched]
  cases Glob.compile (Text.trim pattern) <;>
    simp [Except.toOption, Glob.matchesAny, Glob.filter]

/-- The universal wildcard matches all that is granted. -/
theorem matched_universal {Denotes : String → List Char → Prop}
    (hlib : RegexLibrary.Documented Denotes) {star : Glob} (hstar : Glob.compile "*" = .ok star)
    {pattern : String} (h : Text.trim pattern = "*") (granted : List String) :
    matched granted pattern = granted := by
  have hall : ∀ name ∈ granted, star.isMatch name = true := by
    intro name _
    rw [Glob.isMatch_eq_true_iff hlib, Glob.source_of_compile hstar]
    exact Glob.splits_star.mpr ⟨name.toList, [], (List.append_nil _).symm, Glob.splits_nil.mpr rfl⟩
  rw [matched, h, hstar]
  exact List.filter_eq_self.mpr hall

/-- **A caller does not have to know whether a word is meant as a pattern or as an expression.** If
a text is a word with blanks around it and fits the limit, every way to ask about it gives the same
answer. Unless the word is a truth value or the universal wildcard, the answer says whether there
are granted names that it matches. The universal wildcard matches them all, if the library of
regular expressions compiles it and keeps its promises. -/
theorem settles_of_pads (h : w.Pads padded)
    (hle : padded.utf8ByteSize ≤ settings.maxLength.toNat) (granted : List String) :
    ∃ answer, Settles settings granted padded answer ∧
      (Text.trim padded ∉ ["true", "false", "*"] →
        ∃ names, (matchingPermissions granted padded).Answers names ∧
          (answer = true ↔ names ≠ [])) ∧
      (Text.trim padded = "*" → ∀ Denotes, RegexLibrary.Documented Denotes →
        ∀ star, Glob.compile "*" = .ok star →
          (matchingPermissions granted padded).Answers granted) := by
  have hdecides := decides_of_pads h hle granted
  have hmatched := answers_matchingPermissions granted padded
  refine ⟨holds granted padded, ?settles, ?names, ?universal⟩
  case settles =>
    have hexpr : w.expr.evaluate (holds granted) = holds granted padded := by
      rw [evaluate_expr, holds_of_pads h]
    refine ⟨?_, ⟨w.expr, Word.ofText_of_pads h hle, ?_⟩, answers_matchesPattern granted padded,
      ?_, ?_, ?_⟩
    · exact hdecides ▸ answers_evaluateText settings granted padded
    · exact hexpr ▸ answers_evaluate granted w.expr
    · simpa [hdecides] using answers_hasAny settings granted [padded]
    · simpa [hdecides] using answers_hasAll settings granted [padded]
    · rw [← hdecides, ← Explanation.granted_account]
      exact (Explanation.answers_ofText settings granted padded).map _
  case names =>
    intro hword
    have htrim := Word.pads_iff_trim_eq.mp h
    refine ⟨matched granted padded, hmatched, holds_eq_true_iff_matched_ne_nil ?_ granted⟩
    rw [htrim]
    exact (shortcut?_eq_none_iff w.trim_text).mpr (htrim ▸ hword)
  case universal =>
    intro huniversal Denotes hlib star hstar
    rwa [matched_universal hlib hstar huniversal] at hmatched

end

section

open scoped Builtin

/-- A padded glob, which holds where `user.read` is granted, and the universal wildcard. -/
theorem settles_of_pads_glob :
    Settles .defaults ["user.read"] " user.*\t" true ∧
      (∃ names, (matchingPermissions ["user.read"] " user.*\t").Answers names ∧ names ≠ []) ∧
      (matchingPermissions ["user.read"] "*").Answers ["user.read"] := by
  let w : Word := ⟨"user.*".toList, by decide, List.all_eq_true.mp (by decide)⟩
  have hpads : w.Pads " user.*\t" := by decide +kernel
  have hle : " user.*\t".utf8ByteSize ≤ Settings.defaults.maxLength.toNat := by decide +kernel
  have hholds : holds ["user.read"] " user.*\t" = true := by decide +kernel
  obtain ⟨answer, hsettles, hnames, -⟩ := settles_of_pads hpads hle ["user.read"]
  obtain ⟨names, hanswers, hiff⟩ := hnames (by decide +kernel)
  have hanswer : answer = true := by
    rw [← hsettles.matchesPattern.value_eq (.empty 256), ← hholds]
    exact (answers_matchesPattern _ _).value_eq _
  refine ⟨hanswer ▸ hsettles, ⟨names, hanswers, hiff.mp hanswer⟩, ?_⟩
  let star : Word := ⟨['*'], by decide, List.all_eq_true.mp (by decide)⟩
  have hpads : star.Pads "*" := by decide +kernel
  have hle : "*".utf8ByteSize ≤ Settings.defaults.maxLength.toNat := by decide +kernel
  obtain ⟨glob, hglob⟩ : ∃ glob, Glob.compile "*" = .ok glob := Glob.exists_compile_eq_ok rfl
  obtain ⟨-, -, -, huniversal⟩ := settles_of_pads hpads hle ["user.read"]
  exact huniversal (by decide +kernel) _ Builtin.documented_regexLibrary glob hglob

end

end Decision

end AccessRules
