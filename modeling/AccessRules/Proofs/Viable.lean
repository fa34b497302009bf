import AccessRules.Proofs.OnePass

/-!
# Errors are detected at the first token that is wrong

A list of tokens is viable if more tokens could still make it an expression. An error at a token is
raised as soon as viability is lost, and not before: up to the token there was hope, and with it
there is none, whatever follows. An error at the end of the tokens means that they are viable and
that more of them are needed.

## Main definitions

* `Expr.Viable`: some tokens behind the list make it an accepted one
* `SyntaxError.AtEnd`, `SyntaxError.Blames`: the errors that ask for more tokens, and those that
  are raised at a token

## Main statements

* `exists_completion`: from wherever the pass stands there is a way to the end
* `viable_iff_exists_run`: a list is viable exactly when the pass takes all of it
* `viable_or_blames_of_error`: an error asks for more or blames the first token without hope

## Implementation notes

Viability is about the readers of phrases, and the pass decides it. So the two directions are
lemmas about single steps: what was taken can be completed, since a name is a term at every depth
and closing a group is always allowed, and what was refused stays refused.
-/

namespace AccessRules

namespace SyntaxError

/-- The errors that ask for more tokens. -/
def AtEnd : SyntaxError → Prop
  | empty | unexpectedEnd | unclosedGroup _ => True
  | unexpectedToken _ _ | trailingInput _ | unrecognizedCharacter _ _ | tooLong _ _ | tooDeep _ =>
    False

/-- `e.Blames t`: the error `e` is raised at a token, and what it says of that token is true of
`t`. -/
def Blames (t : Token) : SyntaxError → Prop
  | unexpectedToken found position => t.kind.text = found ∧ t.position = position
  | trailingInput position => t.position = position
  | unrecognizedCharacter char position => t.kind = .unrecognized char ∧ t.position = position
  | tooDeep _ => t.kind = .opening
  | empty | unexpectedEnd | unclosedGroup _ | tooLong _ _ => False

end SyntaxError

namespace Expr

open SyntaxError (empty unexpectedEnd unclosedGroup tooDeep)

theorem blames_misplaced (t : Token) : (misplaced t).Blames t := by
  obtain ⟨kind, position⟩ := t
  cases kind <;> exact ⟨rfl, rfl⟩

theorem blames_trailing (t : Token) : (trailing t).Blames t := by
  obtain ⟨kind, position⟩ := t
  cases kind with
  | unrecognized _ => exact ⟨rfl, rfl⟩
  | opening | closing | and | or | literal _ | pattern _ => exact rfl

namespace Progress

variable {limit : Nat}

/-- A token that is refused is blamed. -/
theorem blames_of_step {p : Progress} {t : Token} {e : SyntaxError}
    (h : p.step limit t = .error e) : e.Blames t := by
  rcases error_of_step h with rfl | ⟨rfl, -⟩ | ⟨rfl, ht⟩
  · exact blames_misplaced t
  · exact blames_trailing t
  · exact ht

/-- Where the tokens end too early, more are asked for. -/
theorem atEnd_of_finish {p : Progress} {e : SyntaxError} (h : p.finish = .error e) : e.AtEnd := by
  match p, h with
  | needTerm _, rfl => trivial
  | haveTerm (_ :: _), rfl => trivial

/-! ### Completions -/

/-- Behind a term the open groups can be closed, one after the other. -/
theorem run_closers (opened : List Nat) :
    (haveTerm opened).run limit (opened.map fun _ => ⟨.closing, 0⟩) = .ok (haveTerm []) := by
  induction opened with
  | nil => rfl
  | cons position outer ih =>
    rw [List.map_cons, run_cons, step_haveTerm_cons (by simp), if_pos rfl]
    exact ih

/-- **From wherever the pass stands there is a way to the end**: a name, if a term has to follow,
and the closing of all groups. -/
theorem exists_completion (limit : Nat) (p : Progress) :
    ∃ us, p.run limit us = .ok (haveTerm []) := by
  cases p with
  | haveTerm opened => exact ⟨_, run_closers opened⟩
  | needTerm opened =>
    refine ⟨⟨.pattern "a", 0⟩ :: opened.map fun _ => ⟨.closing, 0⟩, ?_⟩
    rw [run_cons, step, stepTerm]
    exact run_closers opened

end Progress

open Progress

/-! ### Viability -/

/-- Some tokens behind the list make it an accepted one. -/
def Viable (limit : Nat) (ts : List Token) : Prop :=
  ∃ us e, ofTokens limit (ts ++ us) = .ok e

/-- **A list is viable exactly when the pass takes all of it.** -/
theorem viable_iff_exists_run {limit : Nat} {ts : List Token} :
    Viable limit ts ↔ ∃ p, start.run limit ts = .ok p := by
  constructor
  · rintro ⟨us, e, h⟩
    have hne : ts ++ us ≠ [] := by
      intro hnil
      rw [hnil, ofTokens, if_pos rfl] at h
      simp at h
    have hverdict := map_ofTokens_eq_verdict hne limit
    rw [h, verdict_append] at hverdict
    obtain ⟨p, hp, -⟩ := bind_eq_ok.mp hverdict.symm
    exact ⟨p, hp⟩
  · rintro ⟨p, hp⟩
    obtain ⟨us, hus⟩ := exists_completion limit p
    exact ⟨us, exists_ofTokens_eq_ok_of_run (by rwa [run_append, hp])⟩

/-- With a token that is refused there is no hope left. -/
theorem not_viable_of_step {limit : Nat} {pre : List Token} {t : Token} {p : Progress}
    {e : SyntaxError} (hpre : start.run limit pre = .ok p) (ht : p.step limit t = .error e) :
    ¬ Viable limit (pre ++ [t]) := by
  rw [viable_iff_exists_run]
  rintro ⟨q, hq⟩
  rw [run_append, hpre] at hq
  simp [bind, Except.bind, run_cons, ht] at hq

/-- **Errors are detected at the first token that is wrong.** If reading a list of tokens fails,
then either the error asks for more tokens and the list is viable, or the error blames a token
before which the tokens are viable and with which they are not. -/
theorem viable_or_blames_of_error {limit : Nat} {ts : List Token} {e : SyntaxError}
    (h : ofTokens limit ts = .error e) :
    e.AtEnd ∧ Viable limit ts ∨
      ∃ i t, ts[i]? = some t ∧ Viable limit (ts.take i) ∧ ¬ Viable limit (ts.take (i + 1)) ∧
        e.Blames t := by
  rcases error_of_ofTokens h with ⟨rfl, rfl⟩ | ⟨p, hrun, hfinish⟩ | ⟨pre, t, post, p, rfl, hpre, ht⟩
  · exact .inl ⟨trivial, viable_iff_exists_run.mpr ⟨start, rfl⟩⟩
  · exact .inl ⟨atEnd_of_finish hfinish, viable_iff_exists_run.mpr ⟨p, hrun⟩⟩
  · refine .inr ⟨pre.length, t, by simp, ?_, ?_, blames_of_step ht⟩
    · rw [List.take_left]
      exact viable_iff_exists_run.mpr ⟨p, hpre⟩
    · rw [List.take_length_add_append]
      exact not_viable_of_step hpre ht

/-- The tokens of `(a b)`. -/
def groupOfTwoNames : List Token :=
  [⟨.opening, 0⟩, ⟨.pattern "a", 1⟩, ⟨.pattern "b", 3⟩, ⟨.closing, 4⟩]

/-- In `(a b)` the second name is wrong: before it the group could still be closed. -/
theorem viable_or_blames_groupOfTwoNames :
    ofTokens 1 groupOfTwoNames = .error (.unexpectedToken "b" 3) ∧
      ∃ i t, groupOfTwoNames[i]? = some t ∧ Viable 1 (groupOfTwoNames.take i) ∧
        ¬ Viable 1 (groupOfTwoNames.take (i + 1)) ∧ t.kind.text = "b" ∧ t.position = 3 := by
  have herror : ofTokens 1 groupOfTwoNames = .error (.unexpectedToken "b" 3) :=
    ofTokens_eq_error_of_verdict (List.cons_ne_nil _ _) rfl
  rcases viable_or_blames_of_error herror with ⟨hend, -⟩ | hblamed
  · exact hend.elim
  · exact ⟨herror, hblamed⟩

end Expr

end AccessRules
