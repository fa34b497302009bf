import AccessRules.Proofs.Occurrences

/-!
# Skipping does not change the value

Evaluation skips the right side of an operator once the left side decides. The value is all the
same the one that the connectives have, and it is settled by the patterns that are visited: where
these are answered alike, the same patterns are visited and the value is the same, whatever is
answered about the others.

## Main definitions

* `Expr.meaning`: the proposition that an expression states

## Main statements

* `evaluate_eq_true_iff_meaning`: an expression is true exactly if what it states holds
* `evaluate_eq_of_visited`: of the visited patterns those that have the value settle it
* `evaluate_settled_by_visited`: evaluation is right and settled by what it visits
-/

namespace AccessRules.Expr

variable {holds holds' : String → Bool} {e : Expr}

/-- The proposition that an expression states, given the propositions that its patterns state. -/
def meaning (states : String → Prop) : Expr → Prop
  | literal value => value = true
  | pattern text => states text
  | and left right => left.meaning states ∧ right.meaning states
  | or left right => left.meaning states ∨ right.meaning states

/-- **An expression is true exactly if what it states holds.** -/
theorem evaluate_eq_true_iff_meaning (holds : String → Bool) (e : Expr) :
    e.evaluate holds = true ↔ e.meaning fun p => holds p = true := by
  induction e with
  | literal value => exact Iff.rfl
  | pattern text => exact Iff.rfl
  | and left right ihl ihr =>
    rw [evaluate_and, Bool.and_eq_true, ihl, ihr]
    exact Iff.rfl
  | or left right ihl ihr =>
    rw [evaluate_or, Bool.or_eq_true, ihl, ihr]
    exact Iff.rfl

/-! ### The patterns that are visited -/

theorem mem_visited_left_and {left right : Expr} {p : String} (hp : p ∈ left.visited holds) :
    p ∈ (and left right).visited holds := by
  rw [visited_and]
  exact List.mem_append_left _ hp

theorem mem_visited_left_or {left right : Expr} {p : String} (hp : p ∈ left.visited holds) :
    p ∈ (or left right).visited holds := by
  rw [visited_or]
  exact List.mem_append_left _ hp

theorem mem_visited_right_and {left right : Expr} {p : String}
    (hleft : left.evaluate holds = true) (hp : p ∈ right.visited holds) :
    p ∈ (and left right).visited holds := by
  rw [visited_and, if_pos hleft]
  exact List.mem_append_right _ hp

theorem mem_visited_right_or {left right : Expr} {p : String}
    (hleft : left.evaluate holds = false) (hp : p ∈ right.visited holds) :
    p ∈ (or left right).visited holds := by
  rw [visited_or, if_neg (by simp [hleft])]
  exact List.mem_append_right _ hp

/-- Patterns are visited in the order of the text, each occurrence at most once. -/
theorem visited_sublist (holds : String → Bool) (e : Expr) :
    (e.visited holds).Sublist e.patterns := by
  induction e with
  | literal value => exact List.Sublist.refl _
  | pattern text => exact List.Sublist.refl _
  | and left right ihl ihr =>
    rw [visited_and, patterns]
    cases left.evaluate holds with
    | true => exact ihl.append ihr
    | false => exact ihl.append (List.nil_sublist _)
  | or left right ihl ihr =>
    rw [visited_or, patterns]
    cases left.evaluate holds with
    | true => exact ihl.append (List.nil_sublist _)
    | false => exact ihl.append ihr

/-- **Of the visited patterns those that have the value settle it.** If they keep their answers,
the expression keeps its value, whatever becomes of the answers about all other patterns. -/
theorem evaluate_eq_of_visited {value : Bool} (he : e.evaluate holds = value)
    (h : ∀ p ∈ e.visited holds, holds p = value → holds' p = value) :
    e.evaluate holds' = value := by
  induction e generalizing value with
  | literal _ => exact he
  | pattern text => exact h text List.mem_cons_self he
  | and left right ihl ihr =>
    rw [evaluate_and] at he ⊢
    cases hleft : left.evaluate holds with
    | true =>
      -- The right side has the value of the whole, and a true left side stays true if it matters.
      have hright : right.evaluate holds' = value :=
        ihr (by rwa [hleft, Bool.true_and] at he) fun p hp => h p (mem_visited_right_and hleft hp)
      cases value with
      | true => rw [ihl hleft fun p hp => h p (mem_visited_left_and hp), hright, Bool.and_self]
      | false => rw [hright, Bool.and_false]
    | false =>
      obtain rfl : false = value := by rwa [hleft, Bool.false_and] at he
      rw [ihl hleft fun p hp => h p (mem_visited_left_and hp), Bool.false_and]
  | or left right ihl ihr =>
    rw [evaluate_or] at he ⊢
    cases hleft : left.evaluate holds with
    | true =>
      obtain rfl : true = value := by rwa [hleft, Bool.true_or] at he
      rw [ihl hleft fun p hp => h p (mem_visited_left_or hp), Bool.true_or]
    | false =>
      have hright : right.evaluate holds' = value :=
        ihr (by rwa [hleft, Bool.false_or] at he) fun p hp => h p (mem_visited_right_or hleft hp)
      cases value with
      | true => rw [hright, Bool.or_true]
      | false => rw [ihl hleft fun p hp => h p (mem_visited_left_or hp), hright, Bool.or_self]

/-- Where the visited patterns are answered alike, the value is the same. -/
theorem evaluate_congr_visited (h : ∀ p ∈ e.visited holds, holds' p = holds p) :
    e.evaluate holds' = e.evaluate holds :=
  evaluate_eq_of_visited rfl fun p hp hvalue => (h p hp).trans hvalue

/-- Where the visited patterns are answered alike, the same patterns are visited. -/
theorem visited_congr (h : ∀ p ∈ e.visited holds, holds' p = holds p) :
    e.visited holds' = e.visited holds := by
  induction e with
  | literal value => rfl
  | pattern text => rfl
  | and left right ihl ihr =>
    have hl : ∀ p ∈ left.visited holds, holds' p = holds p :=
      fun p hp => h p (mem_visited_left_and hp)
    rw [visited_and, visited_and, ihl hl, evaluate_congr_visited hl]
    split
    · next hleft => rw [ihr fun p hp => h p (mem_visited_right_and hleft hp)]
    · rfl
  | or left right ihl ihr =>
    have hl : ∀ p ∈ left.visited holds, holds' p = holds p :=
      fun p hp => h p (mem_visited_left_or hp)
    rw [visited_or, visited_or, ihl hl, evaluate_congr_visited hl]
    split
    · rfl
    · next hleft =>
      rw [ihr fun p hp => h p (mem_visited_right_or (Bool.eq_false_iff.mpr hleft) hp)]

/-- **Evaluation is right and settled by what it visits.** One run yields the value and the visited
patterns. The value is true exactly if what the expression states holds, and the visited patterns
are some of its patterns, in order. A run with other answers visits the same and comes to the same
value, if the answers about the visited patterns are the same. -/
theorem evaluate_settled_by_visited (holds : String → Bool) (e : Expr) :
    (e.evaluateM (recording holds)).run [] = (e.evaluate holds, e.visited holds) ∧
      (e.evaluate holds = true ↔ e.meaning fun p => holds p = true) ∧
      (e.visited holds).Sublist e.patterns ∧
      ∀ holds' : String → Bool, (∀ p ∈ e.visited holds, holds' p = holds p) →
        (e.evaluateM (recording holds')).run [] = (e.evaluateM (recording holds)).run [] := by
  refine ⟨run_recording holds e [], evaluate_eq_true_iff_meaning holds e, visited_sublist holds e,
    ?_⟩
  intro holds' h
  rw [run_recording, run_recording, evaluate_congr_visited h, visited_congr h]

/-- In `(a && b) || a` the pattern `b` is skipped where `a` does not hold. So it does not matter
what is answered about `b`. -/
theorem evaluate_settled_by_visited_repeated_pattern :
    let e : Expr := or (and (pattern "a") (pattern "b")) (pattern "a")
    e.visited (· == "b") = ["a", "a"] ∧
      (e.evaluateM (recording fun _ => false)).run [] = (false, ["a", "a"]) := by
  intro e
  have hvisited : e.visited (· == "b") = ["a", "a"] := by decide
  have hagree : ∀ p ∈ e.visited (· == "b"), false = (p == "b") := by decide
  obtain ⟨hrun, -, -, hsettled⟩ := evaluate_settled_by_visited (· == "b") e
  refine ⟨hvisited, ?_⟩
  rw [hsettled (fun _ => false) hagree, hrun, hvisited]
  rfl

end AccessRules.Expr
