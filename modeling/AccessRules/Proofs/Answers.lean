import AccessRules.Decision

/-!
# Answers that do not depend on the cache

A check runs on a cache and leaves another one, but the cache only saves work. This module says
what every check answers, as a function of its question alone.

## Main definitions

* `Checking.Answers`: from every cache a check gives this answer and the same notices
* `Decision.holds`, `Decision.matched`, `Decision.decides`: the answers about a pattern and a text

## Main statements

* `answers_glob?`: a pattern has the glob that it compiles to
* `answers_evaluateM`: if the leaves answer, the answer about an expression is its truth value
* `answers_matchesPattern`, `answers_matchingPermissions`, `answers_evaluate`,
  `answers_evaluateText`, `answers_hasAny`, `answers_hasAll`: one for each kind of decision

## Implementation notes

`Answers` names the answer and only asserts the notices, because answers decide which check comes
next and notices do not. So the answer of a chain of checks is found link by link, and that its
notices are always the same follows without a word about what they are.
-/

namespace AccessRules

namespace Checking

variable [RegexLibrary] {α β : Type} {check : Checking α} {value : α}

/-- Whatever is kept, the check answers `value` and gives the same notices. -/
def Answers (check : Checking α) (value : α) : Prop :=
  ∃ notices, ∀ cache, (check.run cache).value = value ∧ (check.run cache).notices = notices

theorem Answers.value_eq (h : check.Answers value) (cache : GlobCache) :
    (check.run cache).value = value := by
  obtain ⟨_, hrun⟩ := h
  exact (hrun cache).1

/-- The notices of a check that answers are the same from any two caches. -/
theorem Answers.notices_eq (h : check.Answers value) (cache cache' : GlobCache) :
    (check.run cache).notices = (check.run cache').notices := by
  obtain ⟨notices, hrun⟩ := h
  rw [(hrun cache).2, (hrun cache').2]

theorem answers_pure (value : α) : (pure value : Checking α).Answers value :=
  ⟨[], fun _ => ⟨rfl, rfl⟩⟩

/-- Of what follows a check only one continuation matters: the one for its answer. -/
theorem Answers.bind {next : α → Checking β} {result : β} (h : check.Answers value)
    (hnext : (next value).Answers result) : (check >>= next).Answers result := by
  obtain ⟨first, hfirst⟩ := h
  obtain ⟨second, hsecond⟩ := hnext
  refine ⟨first ++ second, fun cache => ?_⟩
  rw [run_bind, (hfirst cache).1, (hfirst cache).2]
  exact ⟨(hsecond _).1, by rw [(hsecond _).2]⟩

theorem Answers.map (f : α → β) (h : check.Answers value) : (f <$> check).Answers (f value) := by
  rw [map_eq_pure_bind]
  exact h.bind (answers_pure _)

theorem answers_notify (notice : Notice) : (notify notice).Answers () :=
  ⟨[notice], fun _ => ⟨rfl, rfl⟩⟩

theorem answers_forget : forget.Answers () :=
  ⟨[], fun _ => ⟨rfl, rfl⟩⟩

/-- Up to its serial number, the compiled glob of a pattern is the one that it compiles to. -/
theorem answers_map_compiled (pattern : String) :
    ((·.map CompiledGlob.glob) <$> compiled pattern).Answers (Glob.compile pattern) := by
  refine ⟨[], fun cache => ?_⟩
  rw [run_map, run_compiled]
  exact ⟨cache.map_glob_getOrCompile pattern, rfl⟩

/-- **A pattern has the glob that it compiles to**, wherever it comes from. -/
theorem answers_glob? (pattern : String) :
    (glob? pattern).Answers (Glob.compile pattern).toOption := by
  have hglob : glob? pattern =
      ((·.map CompiledGlob.glob) <$> compiled pattern) >>= fun result =>
        match result with
        | .ok glob => pure (some glob)
        | .error e => do
          notify (.report (.uncompilable pattern e))
          return none := by
    rw [glob?, bind_map_left]
    congr 1
    funext result
    cases result <;> rfl
  rw [hglob]
  refine (answers_map_compiled pattern).bind ?_
  cases Glob.compile pattern with
  | ok glob => exact answers_pure _
  | error e => exact (answers_notify _).bind (answers_pure _)

/-! ### Expressions and lists -/

/-- **If the leaves answer, the answer about an expression is its truth value.** -/
theorem answers_evaluateM {leaf : String → Checking Bool} {holds : String → Bool}
    (h : ∀ text, (leaf text).Answers (holds text)) (e : Expr) :
    (e.evaluateM leaf).Answers (e.evaluate holds) := by
  induction e with
  | literal value => exact answers_pure value
  | pattern text => exact h text
  | and left right ihl ihr =>
    rw [Expr.evaluate_and]
    refine ihl.bind ?_
    cases left.evaluate holds with
    | true => exact ihr
    | false => exact answers_pure false
  | or left right ihl ihr =>
    rw [Expr.evaluate_or]
    refine ihl.bind ?_
    cases left.evaluate holds with
    | true => exact answers_pure true
    | false => exact ihr

variable {ι : Type} {ask : ι → Checking Bool} {holds : ι → Bool}

theorem answers_anyM (h : ∀ i, (ask i).Answers (holds i)) (is : List ι) :
    (is.anyM ask).Answers (is.any holds) := by
  induction is with
  | nil => exact answers_pure false
  | cons i is ih =>
    rw [List.any_cons]
    refine (h i).bind ?_
    cases holds i with
    | true => exact answers_pure true
    | false => exact ih

theorem answers_allM (h : ∀ i, (ask i).Answers (holds i)) (is : List ι) :
    (is.allM ask).Answers (is.all holds) := by
  induction is with
  | nil => exact answers_pure true
  | cons i is ih =>
    rw [List.all_cons]
    refine (h i).bind ?_
    cases holds i with
    | true => exact ih
    | false => exact answers_pure false

end Checking

namespace Decision

open Checking

variable [RegexLibrary]

/-! ### Patterns -/

/-- Whether a pattern holds. A truth value is its own answer, the universal wildcard always holds,
and any other pattern has to match a granted name. A pattern that has no glob matches none. -/
def holds (granted : List String) (pattern : String) : Bool :=
  match shortcut? (Text.trim pattern) with
  | some (.literal value) => value
  | some .universal => true
  | none => (Glob.compile (Text.trim pattern)).toOption.any (·.matchesAny granted)

/-- The granted names that a pattern matches as a glob. -/
def matched (granted : List String) (pattern : String) : List String :=
  (Glob.compile (Text.trim pattern)).toOption.elim [] (·.filter granted)

theorem answers_matchesPattern (granted : List String) (pattern : String) :
    (matchesPattern granted pattern).Answers (holds granted pattern) := by
  rw [matchesPattern, holds]
  cases shortcut? (Text.trim pattern) with
  | none => exact (answers_glob? _).bind (answers_pure _)
  | some shortcut => cases shortcut <;> exact answers_pure _

theorem answers_matchingPermissions (granted : List String) (pattern : String) :
    (matchingPermissions granted pattern).Answers (matched granted pattern) :=
  (answers_glob? _).bind (answers_pure _)

/-! ### Expressions and texts -/

/-- Whether a text holds: the truth value that it is, or that of the expression that it spells. -/
def decides (settings : Settings) (granted : List String) (text : String) : Bool :=
  match literal? text with
  | some value => value
  | none =>
    match Expr.ofText settings text with
    | .error _ => false
    | .ok e => e.evaluate (holds granted)

theorem answers_evaluate (granted : List String) (e : Expr) :
    (evaluate granted e).Answers (e.evaluate (holds granted)) :=
  answers_evaluateM (answers_matchesPattern granted) e

theorem answers_evaluateText (settings : Settings) (granted : List String) (text : String) :
    (evaluateText settings granted text).Answers (decides settings granted text) := by
  rw [evaluateText, decides]
  cases literal? text with
  | some value => exact answers_pure value
  | none =>
    cases Expr.ofText settings text with
    | error e => exact (answers_notify _).bind (answers_pure false)
    | ok e => exact (answers_evaluate granted e).bind ((answers_notify _).bind (answers_pure _))

theorem answers_hasAny (settings : Settings) (granted : List String) (texts : List String) :
    (hasAny settings granted texts).Answers (texts.any (decides settings granted)) :=
  answers_anyM (answers_evaluateText settings granted) texts

theorem answers_hasAll (settings : Settings) (granted : List String) (texts : List String) :
    (hasAll settings granted texts).Answers (texts.all (decides settings granted)) :=
  answers_allM (answers_evaluateText settings granted) texts

end Decision

end AccessRules
