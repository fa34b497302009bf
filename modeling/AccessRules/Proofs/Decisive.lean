import AccessRules.Except
import AccessRules.Proofs.Occurrences

/-!
# Nothing is asked in vain

Evaluation asks about an occurrence of a pattern only if the answer may matter. However the
occurrences before it were answered, those after it can be answered in such a way that the whole
expression has the value that is answered about this one. So without knowing more it could not have
been skipped.

This holds of expressions without truth values. In `a || true` the answer about `a` never matters.

## Main definitions

* `Expr.LiteralFree`: no truth value stands in the expression
* `Expr.AsksNext`: what evaluation asks about after some answers
* `Expr.resume`: evaluation with some answers given beforehand
* `Expr.attempt`, `Expr.conclude`: the same with no further answers, and with numbered ones

## Main statements

* `resume_append_of_attempt`: answers that are not needed are left over
* `conclude_const`: if all occurrences have the same answer, it is the value
* `exists_decisive`: the next answer can be made the value
* `exists_attempt_eq_conclude`: a list of answers can take the place of leaves that are numbered
* `exists_decisive_answers`: every question may decide

## Implementation notes

Answers are given by occurrence, since a leaf with a state may answer the same pattern differently
every time. What was asked so far is a list of answers without numbers: which occurrences they are
about follows from the answers. If such a list is too short, evaluation stops, and the pattern at
which it stops is the one that it asks about next.
-/

namespace AccessRules.Expr

/-- No truth value stands in the expression. -/
def LiteralFree : Expr → Prop
  | literal _ => False
  | pattern _ => True
  | and left right | or left right => left.LiteralFree ∧ right.LiteralFree

/-! ### Evaluation with given answers -/

section Resume

variable {m : Type → Type} [Monad m]

/-- Answer with the first of the answers that are left over. If there is none, let `later`
answer. -/
def answering (later : Nat → String → m Bool) (occurrence : Nat) (text : String) :
    StateT (List Bool) m Bool
  | [] => (·, []) <$> later occurrence text
  | answer :: answers => pure (answer, answers)

/-- Evaluate an expression whose first occurrence has the number `first`. What is asked first is
answered by `given`, in order, and `later` answers the rest. The answers that are left over are
handed back. -/
def resume (later : Nat → String → m Bool) (first : Nat) (e : Expr) (given : List Bool) :
    m (Bool × List Bool) :=
  (evaluateAt (answering later) first e).run given

/-- Evaluation tells a leaf its occurrence, and that is all that it adds. -/
theorem evaluateAt_const (leaf : String → m Bool) (first : Nat) (e : Expr) :
    evaluateAt (fun _ => leaf) first e = e.evaluateM leaf := by
  induction e generalizing first with
  | literal value => rfl
  | pattern text => rfl
  | and left right ihl ihr => rw [evaluateAt, evaluateM, ihl, ihr]
  | or left right ihl ihr => rw [evaluateAt, evaluateM, ihl, ihr]

theorem run_evaluateM_answering (later : String → m Bool) (e : Expr) (given : List Bool) :
    (e.evaluateM (answering (fun _ => later) 0)).run given = resume (fun _ => later) 0 e given := by
  rw [← evaluateAt_const _ 0 e]
  rfl

section

variable (later : Nat → String → m Bool) (first : Nat) (left right : Expr) (given : List Bool)

theorem resume_and :
    resume later first (and left right) given =
      resume later first left given >>= fun p =>
        if p.1 then resume later (first + left.patterns.length) right p.2
        else pure (false, p.2) :=
  run_evaluateAt_and ..

theorem resume_or :
    resume later first (or left right) given =
      resume later first left given >>= fun p =>
        if p.1 then pure (true, p.2)
        else resume later (first + left.patterns.length) right p.2 :=
  run_evaluateAt_or ..

end

/-- Evaluate with the answers `given`, and stop where there is none. -/
def attempt (first : Nat) (e : Expr) (given : List Bool) : Except String (Bool × List Bool) :=
  resume (fun _ => Except.error) first e given

theorem attempt_and (first : Nat) (left right : Expr) (given : List Bool) :
    attempt first (and left right) given =
      attempt first left given >>= fun p =>
        if p.1 then attempt (first + left.patterns.length) right p.2 else pure (false, p.2) :=
  resume_and ..

theorem attempt_or (first : Nat) (left right : Expr) (given : List Bool) :
    attempt first (or left right) given =
      attempt first left given >>= fun p =>
        if p.1 then pure (true, p.2) else attempt (first + left.patterns.length) right p.2 :=
  resume_or ..

/-- **Answers that are not needed are left over.** If the answers `given` suffice, more of them make
no difference, nor does it matter who would answer the rest. -/
theorem resume_append_of_attempt [LawfulMonad m] {first : Nat} {e : Expr}
    {given rest : List Bool} {value : Bool} (h : attempt first e given = .ok (value, rest))
    (later : Nat → String → m Bool) (more : List Bool) :
    resume later first e (given ++ more) = pure (value, rest ++ more) := by
  induction e generalizing first given rest value with
  | literal _ =>
    cases h
    rfl
  | pattern text =>
    cases given with
    | nil => cases h
    | cons answer answers =>
      cases h
      rfl
  | and left right ihl ihr =>
    rw [attempt_and] at h
    obtain ⟨⟨holds, mid⟩, hl, hr⟩ := bind_eq_ok.mp h
    rw [resume_and, ihl hl, pure_bind]
    cases holds with
    | true => exact ihr hr
    | false =>
      cases hr
      rfl
  | or left right ihl ihr =>
    rw [attempt_or] at h
    obtain ⟨⟨holds, mid⟩, hl, hr⟩ := bind_eq_ok.mp h
    rw [resume_or, ihl hl, pure_bind]
    cases holds with
    | true =>
      cases hr
      rfl
    | false => exact ihr hr

end Resume

/-- Answer with the first of the answers that are left over, and stop if there is none. -/
def stopping (text : String) : StateT (List Bool) (Except String) Bool :=
  answering (fun _ => Except.error) 0 text

/-- After the answers `given`, in the order of the questions, evaluation asks about a pattern
`text`. -/
def AsksNext (e : Expr) (given : List Bool) (text : String) : Prop :=
  (e.evaluateM stopping).run given = .error text

theorem asksNext_iff {e : Expr} {given : List Bool} {text : String} :
    e.AsksNext given text ↔ attempt 0 e given = .error text := by
  rw [attempt, ← run_evaluateM_answering]
  rfl

/-! ### Answers by occurrence -/

/-- The value of an expression where what is asked first is answered by `given` and the rest by
`later`, occurrence by occurrence, and the answers that are left over. -/
def conclude (later : Nat → Bool) (first : Nat) (e : Expr) (given : List Bool) :
    Bool × List Bool :=
  Id.run (resume (fun occurrence _ => pure (later occurrence)) first e given)

theorem conclude_and (later : Nat → Bool) (first : Nat) (left right : Expr) (given : List Bool) :
    conclude later first (and left right) given =
      if (conclude later first left given).1 then
        conclude later (first + left.patterns.length) right (conclude later first left given).2
      else (false, (conclude later first left given).2) := by
  rw [conclude, resume_and, Id.run_bind]
  exact apply_ite Id.run ..

theorem conclude_or (later : Nat → Bool) (first : Nat) (left right : Expr) (given : List Bool) :
    conclude later first (or left right) given =
      if (conclude later first left given).1 then (true, (conclude later first left given).2)
      else
        conclude later (first + left.patterns.length) right
          (conclude later first left given).2 := by
  rw [conclude, resume_or, Id.run_bind]
  exact apply_ite Id.run ..

variable {later later' : Nat → Bool} {first : Nat} {e : Expr} {given : List Bool}

theorem conclude_append_of_attempt {rest : List Bool} {value : Bool}
    (h : attempt first e given = .ok (value, rest)) (later : Nat → Bool) (more : List Bool) :
    conclude later first e (given ++ more) = (value, rest ++ more) :=
  resume_append_of_attempt (m := Id) h _ more

/-- Only the answers about occurrences in the expression matter. -/
theorem conclude_congr
    (h : ∀ i, first ≤ i → i < first + e.patterns.length → later i = later' i) :
    conclude later first e given = conclude later' first e given := by
  induction e generalizing first given with
  | literal _ => rfl
  | pattern text =>
    cases given with
    | nil =>
      have hfirst : later first = later' first := h first (Nat.le_refl _) (Nat.lt_succ_self _)
      exact congrArg (·, []) hfirst
    | cons answer answers => rfl
  | and left right ihl ihr =>
    rw [patterns, List.length_append] at h
    rw [conclude_and, conclude_and, ihl fun i hi hi' => h i hi (by omega),
      ihr fun i hi hi' => h i (by omega) (by omega)]
  | or left right ihl ihr =>
    rw [patterns, List.length_append] at h
    rw [conclude_or, conclude_or, ihl fun i hi hi' => h i hi (by omega),
      ihr fun i hi hi' => h i (by omega) (by omega)]

/-- **If all occurrences have the same answer, it is the value.** -/
theorem conclude_const (h : e.LiteralFree) (value : Bool) (first : Nat) :
    conclude (fun _ => value) first e [] = (value, []) := by
  induction e generalizing first with
  | literal _ => exact h.elim
  | pattern text => rfl
  | and left right ihl ihr =>
    rw [conclude_and, ihl h.1]
    cases value with
    | true => exact ihr h.2 _
    | false => rfl
  | or left right ihl ihr =>
    rw [conclude_or, ihl h.1]
    cases value with
    | true => rfl
    | false => exact ihr h.2 _

/-! ### Decisive answers -/

/-- Answer as `later` does about the occurrences before `border`, and with `value` about all
others. -/
def upTo (border : Nat) (later : Nat → Bool) (value : Bool) (occurrence : Nat) : Bool :=
  if occurrence < border then later occurrence else value

theorem conclude_upTo_left (later : Nat → Bool) (value : Bool) (first : Nat) (left : Expr)
    (given : List Bool) :
    conclude (upTo (first + left.patterns.length) later value) first left given =
      conclude later first left given :=
  conclude_congr fun _ _ hi => if_pos hi

theorem conclude_upTo_right (later : Nat → Bool) (value : Bool) (border : Nat) {right : Expr}
    (h : right.LiteralFree) :
    conclude (upTo border later value) border right [] = (value, []) := by
  rw [← conclude_const h value border]
  exact conclude_congr fun _ hi _ => if_neg (Nat.not_lt.mpr hi)

/-- **The next answer can be made the value.** If the question is on the left side of an operator,
the right side is given the value that lets the left side decide. -/
theorem exists_decisive {text : String} (h : e.LiteralFree)
    (hnext : attempt first e given = .error text) :
    ∃ later, ∀ answer, conclude later first e (given ++ [answer]) = (answer, []) := by
  induction e generalizing first given with
  | literal _ => exact h.elim
  | pattern _ =>
    cases given with
    | nil => exact ⟨fun _ => true, fun answer => rfl⟩
    | cons answer answers => cases hnext
  | and left right ihl ihr =>
    rw [attempt_and] at hnext
    rcases bind_eq_error.mp hnext with hl | ⟨⟨value, mid⟩, hl, hr⟩
    · obtain ⟨later, hlater⟩ := ihl h.1 hl
      refine ⟨upTo (first + left.patterns.length) later true, fun answer => ?_⟩
      rw [conclude_and, conclude_upTo_left, hlater]
      cases answer with
      | true => exact conclude_upTo_right later true _ h.2
      | false => rfl
    · -- The right side is asked, so the left side has its value already, and it is true.
      cases value with
      | false => cases hr
      | true =>
        obtain ⟨later, hlater⟩ := ihr h.2 hr
        refine ⟨later, fun answer => ?_⟩
        rw [conclude_and, conclude_append_of_attempt hl]
        exact hlater answer
  | or left right ihl ihr =>
    rw [attempt_or] at hnext
    rcases bind_eq_error.mp hnext with hl | ⟨⟨value, mid⟩, hl, hr⟩
    · obtain ⟨later, hlater⟩ := ihl h.1 hl
      refine ⟨upTo (first + left.patterns.length) later false, fun answer => ?_⟩
      rw [conclude_or, conclude_upTo_left, hlater]
      cases answer with
      | true => rfl
      | false => exact conclude_upTo_right later false _ h.2
    · -- The right side is asked, so the left side has its value already, and it is false.
      cases value with
      | true => cases hr
      | false =>
        obtain ⟨later, hlater⟩ := ihr h.2 hr
        refine ⟨later, fun answer => ?_⟩
        rw [conclude_or, conclude_append_of_attempt hl]
        exact hlater answer

/-! ### Answers in the order of the questions -/

/-- **A list of answers can take the place of leaves that are numbered**: the answers that the
leaves would give, in the order of the questions. -/
theorem exists_attempt_eq_conclude (later : Nat → Bool) (first : Nat) (e : Expr)
    (given : List Bool) :
    ∃ answers, attempt first e (given ++ answers) = .ok (conclude later first e given) := by
  induction e generalizing first given with
  | literal value => exact ⟨[], by rw [List.append_nil]; rfl⟩
  | pattern text =>
    cases given with
    | nil => exact ⟨[later first], rfl⟩
    | cons answer answers => exact ⟨[], by rw [List.append_nil]; rfl⟩
  | and left right ihl ihr =>
    obtain ⟨⟨value, mid⟩, hleft⟩ : ∃ p, conclude later first left given = p := ⟨_, rfl⟩
    obtain ⟨l, hl⟩ := ihl first given
    obtain ⟨r, hr⟩ := ihr (first + left.patterns.length) mid
    rw [hleft] at hl
    refine ⟨l ++ if value then r else [], ?_⟩
    rw [← List.append_assoc, attempt_and, attempt, resume_append_of_attempt hl, conclude_and, hleft]
    cases value with
    | true => exact hr
    | false => exact congrArg (fun rest => Except.ok (false, rest)) (List.append_nil mid)
  | or left right ihl ihr =>
    obtain ⟨⟨value, mid⟩, hleft⟩ : ∃ p, conclude later first left given = p := ⟨_, rfl⟩
    obtain ⟨l, hl⟩ := ihl first given
    obtain ⟨r, hr⟩ := ihr (first + left.patterns.length) mid
    rw [hleft] at hl
    refine ⟨l ++ if value then [] else r, ?_⟩
    rw [← List.append_assoc, attempt_or, attempt, resume_append_of_attempt hl, conclude_or, hleft]
    cases value with
    | true => exact congrArg (fun rest => Except.ok (true, rest)) (List.append_nil mid)
    | false => exact hr

/-- Answer with the first of the answers that are left over, and with `false` if there is none. -/
def listed (text : String) : StateM (List Bool) Bool :=
  answering (m := Id) (fun _ _ => pure false) 0 text

/-- What evaluation comes to that is attempted with all answers it needs. -/
theorem run_listed_of_attempt {rest : List Bool} {value : Bool}
    (h : attempt 0 e given = .ok (value, rest)) :
    (e.evaluateM listed).run given = (value, rest) := by
  have hrun := resume_append_of_attempt (m := Id) h (fun _ _ => pure false) []
  rw [List.append_nil, List.append_nil, ← run_evaluateM_answering] at hrun
  exact hrun

/-! ### Every question may decide -/

/-- **Every question may decide.** Take an expression without truth values and any answers to what
is asked first, after which evaluation asks about one more occurrence of a pattern. Then there are
answers about the occurrences that come later such that the expression has whatever value is
answered about this one. They may also be given one after the other, by a leaf that is not told
which occurrence it is asked about. -/
theorem exists_decisive_answers {e : Expr} (h : e.LiteralFree) {given : List Bool} {text : String}
    (hnext : e.AsksNext given text) :
    ∃ later : Nat → Bool, ∀ answer,
      conclude later 0 e (given ++ [answer]) = (answer, []) ∧
        ∃ answers, (e.evaluateM listed).run (given ++ answer :: answers) = (answer, []) := by
  obtain ⟨later, hlater⟩ := exists_decisive h (asksNext_iff.mp hnext)
  refine ⟨later, fun answer => ⟨hlater answer, ?_⟩⟩
  obtain ⟨answers, hanswers⟩ := exists_attempt_eq_conclude later 0 e (given ++ [answer])
  rw [hlater answer, List.append_assoc] at hanswers
  exact ⟨answers, run_listed_of_attempt hanswers⟩

/-- With a truth value in the expression, a question may be asked in vain. -/
example (later : Nat → Bool) (answer : Bool) :
    conclude later 0 (or (pattern "a") (literal true)) [answer] = (true, []) := by
  cases answer <;> rfl

/-- In `(a && b) || a` the pattern `b` may decide once `a` holds. The second `a` may be answered
differently from the first. -/
theorem exists_decisive_answers_repeated_pattern :
    let e : Expr := or (and (pattern "a") (pattern "b")) (pattern "a")
    e.LiteralFree ∧ e.AsksNext [true] "b" ∧
      ∃ answers, (e.evaluateM listed).run (true :: false :: answers) = (false, []) := by
  intro e
  have hfree : e.LiteralFree := ⟨⟨trivial, trivial⟩, trivial⟩
  have hnext : e.AsksNext [true] "b" := rfl
  obtain ⟨later, hlater⟩ := exists_decisive_answers hfree hnext
  exact ⟨hfree, hnext, (hlater false).2⟩

end AccessRules.Expr
