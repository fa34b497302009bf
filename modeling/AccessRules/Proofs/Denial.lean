import AccessRules.Builtin.Regex
import AccessRules.Explanation
import AccessRules.Proofs.PaddedWord

/-!
# What cannot be read is denied

Three entry points look at a text: one only says whether it is an expression, one decides it, and
one explains the decision. The last two answer a truth value before they look at its length, so
there is one text that is no expression and is granted all the same: the word for truth, when it
is longer than the limit allows or has too many blanks around it. Nothing else gets through.

## Main statements

* `denied_of_isValid_eq_false`: a text that is no expression is denied unless it is a truth value
* `isValid_eq_false_iff_of_literal?`: a truth value is no expression exactly when it is too long
-/

namespace AccessRules

namespace Decision

/-- A text is no expression exactly when reading it fails. -/
theorem isValid_eq_false_iff {settings : Settings} {text : String} :
    isValid settings text = false ↔ ∃ e, Expr.ofText settings text = .error e := by
  rw [isValid]
  cases Expr.ofText settings text <;> simp [Except.isOk, Except.toBool]

/-- A truth value is no expression exactly when it is too long. -/
theorem isValid_eq_false_iff_of_literal? {text : String} {value : Bool}
    (h : literal? text = some value) {settings : Settings} :
    isValid settings text = false ↔ settings.maxLength.toNat < text.utf8ByteSize := by
  rw [isValid_eq_false_iff, Expr.ofText_of_literal? h]
  split
  · next hlong => simp [hlong]
  · next hshort => simp [hshort]

/-- A truth value decides itself. -/
theorem evaluateText_of_literal? [RegexLibrary] {text : String} {value : Bool}
    (h : literal? text = some value) (settings : Settings) (granted : List String) :
    evaluateText settings granted text = pure value := by
  rw [evaluateText, h]

/-- A text that cannot be read is reported and denied. -/
theorem evaluateText_of_error [RegexLibrary] {settings : Settings} {text : String} {e : SyntaxError}
    (hliteral : literal? text = none) (h : Expr.ofText settings text = .error e)
    (granted : List String) :
    evaluateText settings granted text =
      (do Checking.notify (.report (.malformed text e)); return false) := by
  rw [evaluateText, hliteral, h]

end Decision

namespace Explanation

/-- The explanation of a truth value. -/
theorem ofText_of_literal? [RegexLibrary] {text : String} {value : Bool}
    (h : literal? text = some value) (settings : Settings) (granted : List String) :
    ofText settings granted text = pure ⟨text, .literal value⟩ := by
  rw [ofText, h]

/-- The explanation of a text that cannot be read. -/
theorem ofText_of_error [RegexLibrary] {settings : Settings} {text : String} {e : SyntaxError}
    (hliteral : literal? text = none) (h : Expr.ofText settings text = .error e)
    (granted : List String) : ofText settings granted text = pure ⟨text, .malformed e⟩ := by
  rw [ofText, hliteral, h]

end Explanation

namespace Decision

/-- **What is no expression is denied, truth values apart.** A text that is no expression and no
truth value is denied from whatever cache, and its explanation denies it too and holds the error
that reading it gave. A truth value is no expression only for its length; it answers itself, and
so does its explanation. -/
theorem denied_of_isValid_eq_false [RegexLibrary] {settings : Settings} {text : String}
    (h : isValid settings text = false) (granted : List String) :
    (literal? text = none →
      ∃ e, Expr.ofText settings text = .error e ∧ ∀ cache,
        ((evaluateText settings granted text).run cache).value = false ∧
        ((Explanation.ofText settings granted text).run cache).value.granted = false ∧
        ((Explanation.ofText settings granted text).run cache).value.syntaxError? = some e) ∧
    ∀ value, literal? text = some value →
      settings.maxLength.toNat < text.utf8ByteSize ∧ ∀ cache,
        ((evaluateText settings granted text).run cache).value = value ∧
        ((Explanation.ofText settings granted text).run cache).value.granted = value ∧
        ((Explanation.ofText settings granted text).run cache).value.syntaxError? = none := by
  refine ⟨fun hliteral => ?_, fun value hliteral => ?_⟩
  · obtain ⟨e, he⟩ := isValid_eq_false_iff.mp h
    refine ⟨e, he, fun cache => ?_⟩
    rw [evaluateText_of_error hliteral he, Explanation.ofText_of_error hliteral he]
    exact ⟨rfl, rfl, rfl⟩
  · refine ⟨(isValid_eq_false_iff_of_literal? hliteral).mp h, fun cache => ?_⟩
    rw [evaluateText_of_literal? hliteral, Explanation.ofText_of_literal? hliteral]
    exact ⟨rfl, rfl, rfl⟩

section

open scoped Builtin

/-- A dangling operator is denied, although what stands before it is granted. -/
theorem denied_dangling_operator :
    isValid .defaults "a &&" = false ∧
      ((evaluateText .defaults ["a"] "a &&").run (.empty 256)).value = false ∧
      ((Explanation.ofText .defaults ["a"] "a &&").run (.empty 256)).value.granted = false := by
  have htokens : Expr.tokensOf "a &&" = [⟨.pattern "a", 0⟩, ⟨.and, 2⟩] := by decide +kernel
  have hread : Expr.ofText .defaults "a &&" = .error .unexpectedEnd := by
    rw [Expr.ofText, if_neg (by decide +kernel), htokens, Expr.ofTokens, Expr.disjunction_eq,
      Expr.conjunction_eq, Expr.term_cons]
    simp [Except.bind, Expr.conjuncts_cons]
  have hvalid : isValid .defaults "a &&" = false := isValid_eq_false_iff.mpr ⟨_, hread⟩
  have hliteral : literal? "a &&" = none := by decide +kernel
  obtain ⟨e, -, hdenied⟩ := (denied_of_isValid_eq_false hvalid ["a"]).1 hliteral
  exact ⟨hvalid, (hdenied _).1, (hdenied _).2.1⟩

/-- The word for truth is granted where it is too long to be an expression. -/
theorem granted_oversized_literal :
    ¬ ∀ settings granted text, isValid settings text = false → ∀ cache,
      ((evaluateText settings granted text).run cache).value = false ∧
      ((Explanation.ofText settings granted text).run cache).value.granted = false ∧
      ((Explanation.ofText settings granted text).run cache).value.syntaxError?.isSome := by
  intro h
  have hliteral : literal? "true" = some true := by decide +kernel
  have hlong : (3 : UInt64).toNat < "true".utf8ByteSize := by decide +kernel
  have hvalid : isValid ⟨0, 3, 64⟩ "true" = false :=
    (isValid_eq_false_iff_of_literal? hliteral).mpr hlong
  have hdenied := (h ⟨0, 3, 64⟩ [] "true" hvalid (.empty 0)).1
  rw [evaluateText_of_literal? hliteral] at hdenied
  exact Bool.noConfusion hdenied

end

end Decision

end AccessRules
