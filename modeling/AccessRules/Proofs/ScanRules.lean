import AccessRules.Proofs.OnePass

/-!
# The rules of reading from left to right

The readers of phrases call each other, and a group that is being read is a call that has not come
back. This module says what they do without any calls: as the rules of a scanner that goes through
the tokens once, knows whether a term has to follow, and keeps a stack with the positions of the
open parentheses. There is a rule for every token in every situation, so the rules also say which
error comes first where several are in reach.

## Main definitions

* `Progress.Takes`, `Progress.Refuses`, `Progress.Ends`: the rules for a token that is taken, for a
  token that is refused and for the end of the tokens
* `Progress.Scans`: what scanning a list of tokens comes to

## Main statements

* `takes_or_refuses`: the rules leave no token open
* `scans_iff_verdict_eq`: the rules describe the pass
* `scans_iff_ofTokens`: the readers accept, refuse and complain as the rules say

## Implementation notes

The rules write every error out. They do not mention the functions with which the readers make up
their errors, so that nothing about these has to be believed to read the rules.
-/

namespace AccessRules

/-- The kinds of the tokens with which a term begins. -/
inductive Token.Kind.BeginsTerm : Token.Kind → Prop where
  | opening : BeginsTerm .opening
  | literal (value : Bool) : BeginsTerm (.literal value)
  | pattern (text : String) : BeginsTerm (.pattern text)

namespace Expr

open SyntaxError (unexpectedEnd unexpectedToken unclosedGroup trailingInput
  unrecognizedCharacter tooDeep)

namespace Progress

variable {limit : Nat} {p q : Progress} {t : Token} {ts : List Token} {e : SyntaxError}
  {outcome : Except SyntaxError Unit}

/-! ### The rules -/

/-- `Takes limit p t q`: where the scanner stands at `p`, it takes the token `t` and goes on to
`q`. -/
inductive Takes (limit : Nat) : Progress → Token → Progress → Prop where
  /-- A truth value is a term. -/
  | literal {stack : List Nat} {value : Bool} {position : Nat} :
      Takes limit (needTerm stack) ⟨.literal value, position⟩ (haveTerm stack)
  /-- A pattern is a term. -/
  | pattern {stack : List Nat} {text : String} {position : Nat} :
      Takes limit (needTerm stack) ⟨.pattern text, position⟩ (haveTerm stack)
  /-- A group is opened, if fewer than `limit` are open. -/
  | opening {stack : List Nat} {position : Nat} (h : stack.length < limit) :
      Takes limit (needTerm stack) ⟨.opening, position⟩ (needTerm (position :: stack))
  /-- A term has to follow a conjunction. -/
  | and {stack : List Nat} {position : Nat} :
      Takes limit (haveTerm stack) ⟨.and, position⟩ (needTerm stack)
  /-- A term has to follow a disjunction. -/
  | or {stack : List Nat} {position : Nat} :
      Takes limit (haveTerm stack) ⟨.or, position⟩ (needTerm stack)
  /-- The innermost group is closed, and it is a term. -/
  | closing {innermost : Nat} {stack : List Nat} {position : Nat} :
      Takes limit (haveTerm (innermost :: stack)) ⟨.closing, position⟩ (haveTerm stack)

/-- `Refuses limit p t e`: where the scanner stands at `p`, it refuses the token `t` with the error
`e`. -/
inductive Refuses (limit : Nat) : Progress → Token → SyntaxError → Prop where
  /-- A character that begins no token has no place anywhere. -/
  | unrecognized {p : Progress} {char : Char} {position : Nat} :
      Refuses limit p ⟨.unrecognized char, position⟩ (unrecognizedCharacter char position)
  /-- No group is opened where `limit` are open. -/
  | tooDeep {stack : List Nat} {position : Nat} (h : limit ≤ stack.length) :
      Refuses limit (needTerm stack) ⟨.opening, position⟩ (tooDeep limit)
  /-- Where a term has to follow, nothing else may. -/
  | noTerm {stack : List Nat} {kind : Token.Kind} {position : Nat}
      (h : kind = .closing ∨ kind = .and ∨ kind = .or) :
      Refuses limit (needTerm stack) ⟨kind, position⟩ (unexpectedToken kind.text position)
  /-- Outside all groups there is nothing to close. -/
  | unopened {position : Nat} :
      Refuses limit (haveTerm []) ⟨.closing, position⟩ (trailingInput position)
  /-- Outside all groups no second term follows the first. -/
  | secondTerm {kind : Token.Kind} {position : Nat} (h : kind.BeginsTerm) :
      Refuses limit (haveTerm []) ⟨kind, position⟩ (trailingInput position)
  /-- Inside a group no second term follows the first. -/
  | secondTermInGroup {innermost : Nat} {stack : List Nat} {kind : Token.Kind} {position : Nat}
      (h : kind.BeginsTerm) :
      Refuses limit (haveTerm (innermost :: stack)) ⟨kind, position⟩
        (unexpectedToken kind.text position)

/-- `Ends p outcome`: what it comes to if there are no more tokens where the scanner stands at
`p`. -/
inductive Ends : Progress → Except SyntaxError Unit → Prop where
  /-- A term is missing. -/
  | needTerm {stack : List Nat} : Ends (needTerm stack) (.error unexpectedEnd)
  /-- The expression is complete. -/
  | complete : Ends (haveTerm []) (.ok ())
  /-- The innermost group is not closed. -/
  | unclosed {innermost : Nat} {stack : List Nat} :
      Ends (haveTerm (innermost :: stack)) (.error (unclosedGroup innermost))

/-- `Scans limit p ts outcome`: scanning the tokens `ts` from `p` on comes to `outcome`. -/
inductive Scans (limit : Nat) : Progress → List Token → Except SyntaxError Unit → Prop where
  /-- There are no more tokens. -/
  | ends {p : Progress} {outcome : Except SyntaxError Unit} (h : Ends p outcome) :
      Scans limit p [] outcome
  /-- A token is refused, and what follows it is not looked at. -/
  | refuses {p : Progress} {t : Token} {ts : List Token} {e : SyntaxError}
      (h : Refuses limit p t e) : Scans limit p (t :: ts) (.error e)
  /-- A token is taken, and the scan goes on. -/
  | takes {p q : Progress} {t : Token} {ts : List Token} {outcome : Except SyntaxError Unit}
      (h : Takes limit p t q) (hrest : Scans limit q ts outcome) : Scans limit p (t :: ts) outcome

/-! ### The rules and the pass -/

theorem step_of_takes (h : Takes limit p t q) : p.step limit t = .ok q := by
  cases h with
  | literal | pattern => rfl
  | opening hlimit => exact if_neg (Nat.not_le.mpr hlimit)
  | and => exact step_haveTerm_operator (.inl rfl)
  | or => exact step_haveTerm_operator (.inr rfl)
  | closing => exact step_haveTerm_cons (by simp)

theorem step_of_refuses (h : Refuses limit p t e) : p.step limit t = .error e := by
  cases h with
  | unrecognized =>
    match p with
    | needTerm _ => rfl
    | haveTerm [] => exact step_haveTerm_nil (by simp)
    | haveTerm (_ :: _) => exact step_haveTerm_cons (by simp)
  | tooDeep hlimit => exact if_pos hlimit
  | noTerm hkind => rcases hkind with rfl | rfl | rfl <;> rfl
  | unopened => exact step_haveTerm_nil (by simp)
  | secondTerm hkind => cases hkind <;> exact step_haveTerm_nil (by simp)
  | secondTermInGroup hkind => cases hkind <;> exact step_haveTerm_cons (by simp)

theorem finish_of_ends (h : Ends p outcome) : p.finish = outcome := by
  cases h <;> rfl

/-- **The rules leave no token open**: each is taken or refused, wherever it stands. -/
theorem takes_or_refuses (limit : Nat) (p : Progress) (t : Token) :
    (∃ q, Takes limit p t q) ∨ ∃ e, Refuses limit p t e := by
  obtain ⟨kind, position⟩ := t
  match p, kind with
  | _, .unrecognized _ => exact .inr ⟨_, .unrecognized⟩
  | needTerm _, .literal _ => exact .inl ⟨_, .literal⟩
  | needTerm _, .pattern _ => exact .inl ⟨_, .pattern⟩
  | needTerm stack, .opening =>
    rcases Nat.lt_or_ge stack.length limit with hlimit | hlimit
    · exact .inl ⟨_, .opening hlimit⟩
    · exact .inr ⟨_, .tooDeep hlimit⟩
  | needTerm _, .closing => exact .inr ⟨_, .noTerm (.inl rfl)⟩
  | needTerm _, .and => exact .inr ⟨_, .noTerm (.inr (.inl rfl))⟩
  | needTerm _, .or => exact .inr ⟨_, .noTerm (.inr (.inr rfl))⟩
  | haveTerm _, .and => exact .inl ⟨_, .and⟩
  | haveTerm _, .or => exact .inl ⟨_, .or⟩
  | haveTerm [], .closing => exact .inr ⟨_, .unopened⟩
  | haveTerm (_ :: _), .closing => exact .inl ⟨_, .closing⟩
  | haveTerm [], .opening => exact .inr ⟨_, .secondTerm .opening⟩
  | haveTerm [], .literal value => exact .inr ⟨_, .secondTerm (.literal value)⟩
  | haveTerm [], .pattern text => exact .inr ⟨_, .secondTerm (.pattern text)⟩
  | haveTerm (_ :: _), .opening => exact .inr ⟨_, .secondTermInGroup .opening⟩
  | haveTerm (_ :: _), .literal value => exact .inr ⟨_, .secondTermInGroup (.literal value)⟩
  | haveTerm (_ :: _), .pattern text => exact .inr ⟨_, .secondTermInGroup (.pattern text)⟩

theorem exists_ends (p : Progress) : ∃ outcome, Ends p outcome := by
  match p with
  | needTerm _ => exact ⟨_, .needTerm⟩
  | haveTerm [] => exact ⟨_, .complete⟩
  | haveTerm (_ :: _) => exact ⟨_, .unclosed⟩

theorem verdict_of_scans (h : Scans limit p ts outcome) : p.verdict limit ts = outcome := by
  induction h with
  | ends h => exact finish_of_ends h
  | refuses h => exact verdict_cons_of_error (step_of_refuses h) _
  | takes h _ ih => exact (verdict_cons_of_step (step_of_takes h) _).trans ih

/-- Every scan comes to something. -/
theorem exists_scans (limit : Nat) (p : Progress) (ts : List Token) :
    ∃ outcome, Scans limit p ts outcome := by
  induction ts generalizing p with
  | nil =>
    obtain ⟨outcome, h⟩ := exists_ends p
    exact ⟨outcome, .ends h⟩
  | cons t ts ih =>
    rcases takes_or_refuses limit p t with ⟨q, h⟩ | ⟨e, h⟩
    · obtain ⟨outcome, hrest⟩ := ih q
      exact ⟨outcome, .takes h hrest⟩
    · exact ⟨.error e, .refuses h⟩

/-- **The rules describe the pass.** A scan comes to the verdict of the pass and to nothing
else. -/
theorem scans_iff_verdict_eq : Scans limit p ts outcome ↔ p.verdict limit ts = outcome := by
  constructor
  · exact verdict_of_scans
  · rintro rfl
    obtain ⟨outcome, h⟩ := exists_scans limit p ts
    rwa [verdict_of_scans h]

end Progress

open Progress

/-! ### The rules and the readers -/

/-- **The readers accept, refuse and complain as the rules say.** A list of tokens that is not empty
is an expression exactly if scanning it succeeds, and an error is raised exactly if the scan comes
to that error. The scan always comes to one of these and never to two. -/
theorem scans_iff_ofTokens {ts : List Token} (hts : ts ≠ []) (limit : Nat) :
    (Scans limit (needTerm []) ts (.ok ()) ↔ ∃ e, ofTokens limit ts = .ok e) ∧
      (∀ e, Scans limit (needTerm []) ts (.error e) ↔ ofTokens limit ts = .error e) ∧
      ∃ outcome, ∀ other, Scans limit (needTerm []) ts other ↔ other = outcome := by
  have hmap : (ofTokens limit ts).map (fun _ => ()) = (needTerm []).verdict limit ts :=
    map_ofTokens_eq_verdict hts limit
  simp only [scans_iff_verdict_eq, ← hmap]
  refine ⟨?_, fun e => ?_, _, fun other => eq_comm⟩
  · cases ofTokens limit ts <;> simp [Except.map]
  · cases ofTokens limit ts <;> simp [Except.map]

/-- The tokens of `((a $`. -/
def unclosedGroups : List Token :=
  [⟨.opening, 0⟩, ⟨.opening, 1⟩, ⟨.pattern "a", 2⟩, ⟨.unrecognized '$', 4⟩]

/-- In `((a $` the limit, the character and the open groups are all at fault, and what comes first
is reported. -/
theorem scans_iff_ofTokens_unclosedGroups :
    unclosedGroups ≠ [] ∧ ofTokens 1 unclosedGroups = .error (.tooDeep 1) ∧
      ofTokens 2 unclosedGroups = .error (.unrecognizedCharacter '$' 4) := by
  have hne : unclosedGroups ≠ [] := List.cons_ne_nil _ _
  have hlimit : Scans 1 (needTerm []) unclosedGroups (.error (.tooDeep 1)) :=
    .takes (.opening Nat.zero_lt_one) (.refuses (.tooDeep (Nat.le_refl 1)))
  have hchar : Scans 2 (needTerm []) unclosedGroups (.error (.unrecognizedCharacter '$' 4)) :=
    .takes (.opening Nat.zero_lt_two)
      (.takes (.opening Nat.one_lt_two) (.takes .pattern (.refuses .unrecognized)))
  exact ⟨hne, ((scans_iff_ofTokens hne 1).2.1 _).mp hlimit,
    ((scans_iff_ofTokens hne 2).2.1 _).mp hchar⟩

end Expr

end AccessRules
