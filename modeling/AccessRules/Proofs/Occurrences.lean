import AccessRules.Proofs.Answers

/-!
# Which occurrences of its patterns an expression asks about

A pattern may stand in an expression several times, and one occurrence of it may be asked about
while another is skipped. So the occurrences are numbered in the order of the text, skipped ones
included, and evaluation is told which one it asks about.

## Main definitions

* `Expr.evaluateAt`: evaluation for leaves that know which occurrence they are
* `Expr.askedM`: the occurrences that an evaluation asks about, with leaves that act in any monad
* `Expr.asked`: the same for leaves whose answers are known

## Main statements

* `map_fst_run_noting`: taking notes does not change evaluation
* `answers_askedM`: checks ask about the occurrences that their answers let them reach
* `mem_asked`: an expression asks only about its own occurrences
* `visited_and`, `visited_or`: the patterns that are visited, by the root of the expression
-/

namespace AccessRules

namespace Expr

variable {m : Type → Type} [Monad m]

/-- Decide an expression as `evaluateM` does, telling `leaf` which occurrence it is asked about.
The first occurrence has the number `first`. -/
def evaluateAt (leaf : Nat → String → m Bool) : Nat → Expr → m Bool
  | _, literal value => pure value
  | first, pattern text => leaf first text
  | first, and left right => do
    if ← evaluateAt leaf first left then evaluateAt leaf (first + left.patterns.length) right
    else pure false
  | first, or left right => do
    if ← evaluateAt leaf first left then pure true
    else evaluateAt leaf (first + left.patterns.length) right

section State

variable {σ : Type} (leaf : Nat → String → StateT σ m Bool) (first : Nat) (left right : Expr)
  (s : σ)

theorem run_evaluateAt_and :
    (evaluateAt leaf first (and left right)).run s =
      (evaluateAt leaf first left).run s >>= fun p =>
        if p.1 then (evaluateAt leaf (first + left.patterns.length) right).run p.2
        else pure (false, p.2) := by
  rw [evaluateAt, StateT.run_bind]
  congr 1
  funext ⟨holds, s'⟩
  cases holds <;> rfl

theorem run_evaluateAt_or :
    (evaluateAt leaf first (or left right)).run s =
      (evaluateAt leaf first left).run s >>= fun p =>
        if p.1 then pure (true, p.2)
        else (evaluateAt leaf (first + left.patterns.length) right).run p.2 := by
  rw [evaluateAt, StateT.run_bind]
  congr 1
  funext ⟨holds, s'⟩
  cases holds <;> rfl

end State

/-- Ask a leaf and take down which occurrence it is. -/
def noting (leaf : String → m Bool) (occurrence : Nat) (text : String) :
    StateT (List Nat) m Bool := do
  modify (· ++ [occurrence])
  leaf text

theorem run_noting [LawfulMonad m] (leaf : String → m Bool) (occurrence : Nat) (text : String)
    (before : List Nat) :
    (noting leaf occurrence text).run before = (·, before ++ [occurrence]) <$> leaf text := by
  simp [noting]

/-- **Taking notes does not change evaluation**: the same leaves act in the same order, to the same
result. -/
theorem map_fst_run_noting [LawfulMonad m] (leaf : String → m Bool) (first : Nat) (e : Expr)
    (before : List Nat) :
    Prod.fst <$> (evaluateAt (noting leaf) first e).run before = e.evaluateM leaf := by
  induction e generalizing first before with
  | literal value => simp [evaluateAt, evaluateM]
  | pattern text => simp [evaluateAt, evaluateM, run_noting]
  | and left right ihl ihr =>
    rw [run_evaluateAt_and, evaluateM, ← ihl first before, map_bind, bind_map_left]
    refine bind_congr fun p => ?_
    obtain ⟨holds, notes⟩ := p
    cases holds with
    | true => exact ihr _ notes
    | false => exact map_pure _ _
  | or left right ihl ihr =>
    rw [run_evaluateAt_or, evaluateM, ← ihl first before, map_bind, bind_map_left]
    refine bind_congr fun p => ?_
    obtain ⟨holds, notes⟩ := p
    cases holds with
    | true => exact map_pure _ _
    | false => exact ihr _ notes

/-- The occurrences that the evaluation of an expression asks about, in order. -/
def askedM (leaf : String → m Bool) (e : Expr) : m (List Nat) :=
  Prod.snd <$> (evaluateAt (noting leaf) 0 e).run []

/-- The occurrences that an expression asks about when `holds` answers, in order. -/
def asked (holds : String → Bool) : Nat → Expr → List Nat
  | _, literal _ => []
  | first, pattern _ => [first]
  | first, and left right =>
    asked holds first left ++
      if left.evaluate holds then asked holds (first + left.patterns.length) right else []
  | first, or left right =>
    asked holds first left ++
      if left.evaluate holds then [] else asked holds (first + left.patterns.length) right

/-- An expression asks only about its own occurrences. -/
theorem mem_asked {holds : String → Bool} {first i : Nat} {e : Expr} (h : i ∈ asked holds first e) :
    first ≤ i ∧ i < first + e.patterns.length := by
  induction e generalizing first with
  | literal value => simp [asked] at h
  | pattern text =>
    obtain rfl : i = first := by simpa [asked] using h
    simp [patterns]
  | and left right ihl ihr | or left right ihl ihr =>
    have hside : i ∈ asked holds first left ∨
        i ∈ asked holds (first + left.patterns.length) right := by
      grind [asked]
    rw [patterns, List.length_append]
    rcases hside with h | h
    · have := ihl h
      omega
    · have := ihr h
      omega

/-! ### The patterns that are visited -/

/-- Answer as `holds` does and take down the pattern. -/
def recording (holds : String → Bool) (text : String) : StateM (List String) Bool := do
  modify (· ++ [text])
  return holds text

/-- What is taken down does not depend on what was there before. -/
theorem exists_run_recording (holds : String → Bool) (e : Expr) :
    ∃ notes, ∀ before,
      (e.evaluateM (recording holds)).run before = (e.evaluate holds, before ++ notes) := by
  induction e with
  | literal value => exact ⟨[], fun before => by rw [List.append_nil]; rfl⟩
  | pattern text => exact ⟨[text], fun before => rfl⟩
  | and left right ihl ihr =>
    obtain ⟨l, hl⟩ := ihl
    obtain ⟨r, hr⟩ := ihr
    refine ⟨l ++ if left.evaluate holds then r else [], fun before => ?_⟩
    rw [evaluateM, StateT.run_bind, hl, evaluate_and]
    cases left.evaluate holds with
    | true =>
      rw [if_pos rfl, ← List.append_assoc]
      exact hr _
    | false =>
      rw [if_neg Bool.false_ne_true, List.append_nil]
      rfl
  | or left right ihl ihr =>
    obtain ⟨l, hl⟩ := ihl
    obtain ⟨r, hr⟩ := ihr
    refine ⟨l ++ if left.evaluate holds then [] else r, fun before => ?_⟩
    rw [evaluateM, StateT.run_bind, hl, evaluate_or]
    cases left.evaluate holds with
    | true =>
      rw [if_pos rfl, List.append_nil]
      rfl
    | false =>
      rw [if_neg Bool.false_ne_true, ← List.append_assoc]
      exact hr _

/-- `visited` is what is taken down. -/
theorem run_recording (holds : String → Bool) (e : Expr) (before : List String) :
    (e.evaluateM (recording holds)).run before =
      (e.evaluate holds, before ++ e.visited holds) := by
  obtain ⟨notes, h⟩ := exists_run_recording holds e
  have hvisited : e.visited holds = notes := congrArg Prod.snd (h [])
  rw [h, hvisited]

theorem visited_and (holds : String → Bool) (left right : Expr) :
    (and left right).visited holds =
      left.visited holds ++ if left.evaluate holds then right.visited holds else [] := by
  change (((and left right).evaluateM (recording holds)).run []).2 = _
  rw [evaluateM, StateT.run_bind, run_recording]
  cases left.evaluate holds with
  | true => exact congrArg Prod.snd (run_recording holds right _)
  | false => exact (List.append_nil _).symm

theorem visited_or (holds : String → Bool) (left right : Expr) :
    (or left right).visited holds =
      left.visited holds ++ if left.evaluate holds then [] else right.visited holds := by
  change (((or left right).evaluateM (recording holds)).run []).2 = _
  rw [evaluateM, StateT.run_bind, run_recording]
  cases left.evaluate holds with
  | true => exact (List.append_nil _).symm
  | false => exact congrArg Prod.snd (run_recording holds right _)

/-! ### Checks -/

open Checking in
/-- **Checks ask about the occurrences that their answers let them reach.** -/
theorem answers_evaluateAt_noting [RegexLibrary] {leaf : String → Checking Bool}
    {holds : String → Bool} (h : ∀ text, (leaf text).Answers (holds text)) (first : Nat)
    (e : Expr) (before : List Nat) :
    ((evaluateAt (noting leaf) first e).run before).Answers
      (e.evaluate holds, before ++ asked holds first e) := by
  induction e generalizing first before with
  | literal value =>
    rw [asked, List.append_nil]
    exact answers_pure _
  | pattern text =>
    rw [evaluateAt, run_noting]
    exact (h text).map _
  | and left right ihl ihr =>
    rw [run_evaluateAt_and, evaluate_and, asked]
    refine (ihl first before).bind ?_
    cases left.evaluate holds with
    | true =>
      rw [if_pos rfl, if_pos rfl, Bool.true_and, ← List.append_assoc]
      exact ihr _ _
    | false =>
      rw [if_neg Bool.false_ne_true, if_neg Bool.false_ne_true, List.append_nil]
      exact answers_pure _
  | or left right ihl ihr =>
    rw [run_evaluateAt_or, evaluate_or, asked]
    refine (ihl first before).bind ?_
    cases left.evaluate holds with
    | true =>
      rw [if_pos rfl, if_pos rfl, List.append_nil]
      exact answers_pure _
    | false =>
      rw [if_neg Bool.false_ne_true, if_neg Bool.false_ne_true, Bool.false_or, ← List.append_assoc]
      exact ihr _ _

open Checking in
theorem answers_askedM [RegexLibrary] {leaf : String → Checking Bool} {holds : String → Bool}
    (h : ∀ text, (leaf text).Answers (holds text)) (e : Expr) :
    (askedM leaf e).Answers (asked holds 0 e) :=
  (answers_evaluateAt_noting h 0 e []).map Prod.snd

end Expr

end AccessRules
