import AccessRules.Expr
import AccessRules.SyntaxError
import AccessRules.Token

/-!
# Expressions from tokens

The grammar is

* `disjunction := conjunction ('||' conjunction)*`
* `conjunction := term ('&&' term)*`
* `term := '(' disjunction ')' | literal | pattern`

Both operators associate to the left, and `&&` binds tighter than `||`. Two neighbouring terms are
an error, as there is no implicit operator. A reader of a phrase takes it off the front of the
tokens and hands back its tree and the tokens that are left. `depth` is the number of groups that
are open around the phrase, and no group is opened when it has reached `limit`.

## Main statements

* `disjunction_eq`, `disjuncts_cons`, `conjunction_eq`, `conjuncts_cons`, `term_cons`, `group_eq`:
  one equation for each way a phrase goes on

## Implementation notes

The readers in the section `Bounded` call each other, and what ends them is that a phrase is not
empty. So their results carry the bound on the tokens that are left. Everything after that section
speaks about the readers without the bounds, through the equations above.
-/

namespace AccessRules

namespace Expr

open SyntaxError (empty unexpectedEnd unexpectedToken unclosedGroup trailingInput
  unrecognizedCharacter tooDeep)

/-- The error for a token that stands where it has no place. -/
def misplaced (t : Token) : SyntaxError :=
  match t.kind with
  | .unrecognized char => unrecognizedCharacter char t.position
  | kind => unexpectedToken kind.text t.position

namespace Bounded

/-- A tree and the tokens after its phrase, of which there are fewer than `bound`. -/
structure Phrase (bound : Nat) where
  tree : Expr
  rest : List Token
  length_lt : rest.length < bound

/-- The group that was opened at `position` and holds the phrase `p`, if it is closed next. -/
def Phrase.close {bound : Nat} (position : Nat) : Phrase bound → Except SyntaxError (Phrase bound)
  | ⟨_, [], _⟩ => .error (unclosedGroup position)
  | ⟨inner, t :: rest, h⟩ =>
    if t.kind = .closing then .ok ⟨inner, rest, Nat.lt_of_succ_lt h⟩ else .error (misplaced t)

/-- Weaken the bound. -/
def Phrase.widen {m n : Nat} (h : m ≤ n) (p : Phrase m) : Phrase n :=
  ⟨p.tree, p.rest, Nat.lt_of_lt_of_le p.length_lt h⟩

mutual

/-- A disjunction at the front of `ts`. -/
def disjunction (limit depth : Nat) (ts : List Token) :
    Except SyntaxError (Phrase ts.length) :=
  match conjunction limit depth ts with
  | .error e => .error e
  | .ok p =>
    match disjuncts limit depth p.tree p.rest with
    | .error e => .error e
    | .ok q => .ok (q.widen p.length_lt)
termination_by (ts.length, 3)
decreasing_by
  · exact Prod.Lex.right _ (by omega)
  · exact Prod.Lex.left _ _ p.length_lt

/-- The disjuncts that follow the disjunction `left`. -/
def disjuncts (limit depth : Nat) (left : Expr) (ts : List Token) :
    Except SyntaxError (Phrase (ts.length + 1)) :=
  match ts with
  | [] => .ok ⟨left, [], Nat.lt_succ_self _⟩
  | t :: rest =>
    if t.kind = .or then
      match conjunction limit depth rest with
      | .error e => .error e
      | .ok p =>
        match disjuncts limit depth (.or left p.tree) p.rest with
        | .error e => .error e
        | .ok q => .ok (q.widen (Nat.le_succ_of_le (Nat.le_succ_of_le p.length_lt)))
    else .ok ⟨left, t :: rest, Nat.lt_succ_self _⟩
termination_by (ts.length, 0)
decreasing_by
  · exact Prod.Lex.left _ _ (Nat.lt_succ_self _)
  · exact Prod.Lex.left _ _ (Nat.lt_succ_of_lt p.length_lt)

/-- A conjunction at the front of `ts`. -/
def conjunction (limit depth : Nat) (ts : List Token) :
    Except SyntaxError (Phrase ts.length) :=
  match term limit depth ts with
  | .error e => .error e
  | .ok p =>
    match conjuncts limit depth p.tree p.rest with
    | .error e => .error e
    | .ok q => .ok (q.widen p.length_lt)
termination_by (ts.length, 2)
decreasing_by
  · exact Prod.Lex.right _ (by omega)
  · exact Prod.Lex.left _ _ p.length_lt

/-- The conjuncts that follow the conjunction `left`. -/
def conjuncts (limit depth : Nat) (left : Expr) (ts : List Token) :
    Except SyntaxError (Phrase (ts.length + 1)) :=
  match ts with
  | [] => .ok ⟨left, [], Nat.lt_succ_self _⟩
  | t :: rest =>
    if t.kind = .and then
      match term limit depth rest with
      | .error e => .error e
      | .ok p =>
        match conjuncts limit depth (.and left p.tree) p.rest with
        | .error e => .error e
        | .ok q => .ok (q.widen (Nat.le_succ_of_le (Nat.le_succ_of_le p.length_lt)))
    else .ok ⟨left, t :: rest, Nat.lt_succ_self _⟩
termination_by (ts.length, 0)
decreasing_by
  · exact Prod.Lex.left _ _ (Nat.lt_succ_self _)
  · exact Prod.Lex.left _ _ (Nat.lt_succ_of_lt p.length_lt)

/-- A term at the front of `ts`. -/
def term (limit depth : Nat) (ts : List Token) : Except SyntaxError (Phrase ts.length) :=
  match ts with
  | [] => .error unexpectedEnd
  | ⟨.literal value, _⟩ :: rest => .ok ⟨.literal value, rest, Nat.lt_succ_self _⟩
  | ⟨.pattern text, _⟩ :: rest => .ok ⟨.pattern text, rest, Nat.lt_succ_self _⟩
  | ⟨.opening, position⟩ :: rest =>
    match group limit depth position rest with
    | .error e => .error e
    | .ok p => .ok (p.widen (Nat.le_succ _))
  | t :: _ => .error (misplaced t)
termination_by (ts.length, 1)
decreasing_by exact Prod.Lex.left _ _ (Nat.lt_succ_self _)

/-- What follows the parenthesis at `position` that opens a group. -/
def group (limit depth position : Nat) (ts : List Token) :
    Except SyntaxError (Phrase ts.length) :=
  if limit ≤ depth then .error (tooDeep limit)
  else
    match disjunction limit (depth + 1) ts with
    | .error e => .error e
    | .ok p => p.close position
termination_by (ts.length, 4)
decreasing_by exact Prod.Lex.right _ (by omega)

end

end Bounded

/-! ### The readers of phrases -/

/-- What a reader finds: the tree of a phrase and the tokens after it. -/
abbrev Reading := Except SyntaxError (Expr × List Token)

/-- A reading without the bound on the tokens that are left. -/
def Bounded.reading {bound : Nat} (r : Except SyntaxError (Bounded.Phrase bound)) :
    Reading :=
  r.map fun p => (p.tree, p.rest)

/-- Read a disjunction off the front of the tokens. -/
def disjunction (limit depth : Nat) (ts : List Token) : Reading :=
  Bounded.reading (Bounded.disjunction limit depth ts)

/-- Read the disjuncts that follow the disjunction `left`. -/
def disjuncts (limit depth : Nat) (left : Expr) (ts : List Token) : Reading :=
  Bounded.reading (Bounded.disjuncts limit depth left ts)

/-- Read a conjunction off the front of the tokens. -/
def conjunction (limit depth : Nat) (ts : List Token) : Reading :=
  Bounded.reading (Bounded.conjunction limit depth ts)

/-- Read the conjuncts that follow the conjunction `left`. -/
def conjuncts (limit depth : Nat) (left : Expr) (ts : List Token) : Reading :=
  Bounded.reading (Bounded.conjuncts limit depth left ts)

/-- Read a term off the front of the tokens. -/
def term (limit depth : Nat) (ts : List Token) : Reading :=
  Bounded.reading (Bounded.term limit depth ts)

/-- Read the rest of the group whose parenthesis stands at `position`. -/
def group (limit depth position : Nat) (ts : List Token) : Reading :=
  Bounded.reading (Bounded.group limit depth position ts)

/-- Close the group that was opened at `position` after its inner phrase. -/
def closeGroup (position : Nat) : Expr × List Token → Reading
  | (_, []) => .error (unclosedGroup position)
  | (inner, t :: rest) => if t.kind = .closing then .ok (inner, rest) else .error (misplaced t)

theorem disjunction_eq (limit depth : Nat) (ts : List Token) :
    disjunction limit depth ts =
      (conjunction limit depth ts).bind fun p => disjuncts limit depth p.1 p.2 := by
  simp only [disjunction, conjunction, disjuncts, Bounded.disjunction]
  cases Bounded.conjunction limit depth ts with
  | error e => rfl
  | ok p =>
    cases h : Bounded.disjuncts limit depth p.tree p.rest <;>
      simp [Bounded.reading, Except.map, Except.bind, h, Bounded.Phrase.widen]

@[simp] theorem disjuncts_nil (limit depth : Nat) (left : Expr) :
    disjuncts limit depth left [] = .ok (left, []) := by
  simp [disjuncts, Bounded.disjuncts, Bounded.reading, Except.map]

theorem disjuncts_cons (limit depth : Nat) (left : Expr) (t : Token) (ts : List Token) :
    disjuncts limit depth left (t :: ts) =
      if t.kind = .or then
        (conjunction limit depth ts).bind fun p => disjuncts limit depth (.or left p.1) p.2
      else .ok (left, t :: ts) := by
  simp only [disjuncts, conjunction, Bounded.disjuncts]
  split
  · cases Bounded.conjunction limit depth ts with
    | error e => rfl
    | ok p =>
      cases h : Bounded.disjuncts limit depth (.or left p.tree) p.rest <;>
        simp [Bounded.reading, Except.map, Except.bind, h, Bounded.Phrase.widen]
  · rfl

theorem conjunction_eq (limit depth : Nat) (ts : List Token) :
    conjunction limit depth ts =
      (term limit depth ts).bind fun p => conjuncts limit depth p.1 p.2 := by
  simp only [conjunction, term, conjuncts, Bounded.conjunction]
  cases Bounded.term limit depth ts with
  | error e => rfl
  | ok p =>
    cases h : Bounded.conjuncts limit depth p.tree p.rest <;>
      simp [Bounded.reading, Except.map, Except.bind, h, Bounded.Phrase.widen]

@[simp] theorem conjuncts_nil (limit depth : Nat) (left : Expr) :
    conjuncts limit depth left [] = .ok (left, []) := by
  simp [conjuncts, Bounded.conjuncts, Bounded.reading, Except.map]

theorem conjuncts_cons (limit depth : Nat) (left : Expr) (t : Token) (ts : List Token) :
    conjuncts limit depth left (t :: ts) =
      if t.kind = .and then
        (term limit depth ts).bind fun p => conjuncts limit depth (.and left p.1) p.2
      else .ok (left, t :: ts) := by
  simp only [conjuncts, term, Bounded.conjuncts]
  split
  · cases Bounded.term limit depth ts with
    | error e => rfl
    | ok p =>
      cases h : Bounded.conjuncts limit depth (.and left p.tree) p.rest <;>
        simp [Bounded.reading, Except.map, Except.bind, h, Bounded.Phrase.widen]
  · rfl

@[simp] theorem term_nil (limit depth : Nat) : term limit depth [] = .error unexpectedEnd := by
  simp [term, Bounded.term, Bounded.reading, Except.map]

theorem term_cons (limit depth : Nat) (t : Token) (ts : List Token) :
    term limit depth (t :: ts) =
      match t.kind with
      | .literal value => .ok (.literal value, ts)
      | .pattern text => .ok (.pattern text, ts)
      | .opening => group limit depth t.position ts
      | _ => .error (misplaced t) := by
  obtain ⟨kind, position⟩ := t
  cases kind
  case opening =>
    simp only [term, group, Bounded.term]
    cases Bounded.group limit depth position ts <;>
      simp [Bounded.reading, Except.map, Bounded.Phrase.widen]
  all_goals simp [term, Bounded.term, Bounded.reading, Except.map]

theorem group_eq (limit depth position : Nat) (ts : List Token) :
    group limit depth position ts =
      if limit ≤ depth then .error (tooDeep limit)
      else (disjunction limit (depth + 1) ts).bind (closeGroup position) := by
  simp only [group, disjunction, Bounded.group]
  split
  · rfl
  · cases Bounded.disjunction limit (depth + 1) ts with
    | error e => rfl
    | ok p =>
      obtain ⟨inner, rest, h⟩ := p
      cases rest with
      | nil => rfl
      | cons t rest =>
        by_cases ht : t.kind = .closing <;>
          simp [Bounded.Phrase.close, Bounded.reading, Except.map, Except.bind, closeGroup, ht]

/-! ### The whole list -/

/-- What is wrong with a token that follows a complete expression. -/
def trailing (t : Token) : SyntaxError :=
  match t.kind with
  | .unrecognized char => unrecognizedCharacter char t.position
  | _ => trailingInput t.position

/-- The expression that a list of tokens spells, with at most `limit` groups open at once. -/
def ofTokens (limit : Nat) (ts : List Token) : Except SyntaxError Expr :=
  if ts = [] then .error empty
  else
    match disjunction limit 0 ts with
    | .error e => .error e
    | .ok (e, []) => .ok e
    | .ok (_, t :: _) => .error (trailing t)

end Expr

end AccessRules
