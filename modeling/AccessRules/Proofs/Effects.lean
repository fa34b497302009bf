import AccessRules.Proofs.Occurrences
import AccessRules.Proofs.PaddedWord
import AccessRules.Request

/-!
# What a decision does besides deciding

A decision asks the cache for compiled globs and gives notice of what it meets. Both can be told
in advance from what short-circuit evaluation visits: one question to the cache for each visited
pattern that needs a glob, in the order of the visits, and nothing else. What a later check finds
in the cache, and what the log says, depends on this order.

## Main definitions

* `Checking.Act`, `Checking.perform`: one effect, and what a list of effects leaves
* `Checking.Performs`: from every cache a check answers this and does that
* `Decision.actsOfPattern`, `Decision.actsOfExpr`, `Decision.actsOfText`: the effects of a decision

## Main statements

* `performs_evaluateM`: an expression has the effects of the patterns that it visits
* `performs_anyM`, `performs_allM`: a list has the effects of its items up to the one that decides
* `performs_exactly`: the effects of every kind of decision

## Implementation notes

The effects are written down as a list, so that those of two checks in a row are an append. Whether
a pattern is found in the cache, or has to be compiled and makes another one give way, is left to
the cache: `perform` puts the questions and does not look at how they are answered, except that a
pattern without a glob is reported.
-/

namespace AccessRules

namespace Checking

variable [RegexLibrary] {α β : Type}

/-- One effect of a check. -/
inductive Act where
  /-- The cache is asked for the glob of a pattern. -/
  | lookUp (pattern : String)
  /-- Notice is given. -/
  | notify (notice : Notice)
  deriving DecidableEq, Repr

/-- The notices about a pattern that the cache was asked for: a report if it has no glob. -/
def noticesAbout (pattern : String) : Except RegexError CompiledGlob → List Notice
  | .ok _ => []
  | .error e => [.report (.uncompilable pattern e)]

/-- The cache after some effects and the notices among them, in order. -/
def perform (cache : GlobCache) : List Act → GlobCache × List Notice
  | [] => (cache, [])
  | .lookUp pattern :: acts =>
    let (result, cache) := cache.getOrCompile pattern
    let (cache, notices) := perform cache acts
    (cache, noticesAbout pattern result ++ notices)
  | .notify notice :: acts =>
    let (cache, notices) := perform cache acts
    (cache, notice :: notices)

/-- From every cache the check answers `value` and has the effects `acts`. -/
def Performs (check : Checking α) (value : α) (acts : List Act) : Prop :=
  ∀ cache, check.run cache = ⟨value, (perform cache acts).1, (perform cache acts).2⟩

/-! ### One check after the other -/

theorem perform_append (cache : GlobCache) (acts acts' : List Act) :
    perform cache (acts ++ acts') =
      ((perform (perform cache acts).1 acts').1,
        (perform cache acts).2 ++ (perform (perform cache acts).1 acts').2) := by
  induction acts generalizing cache with
  | nil => rfl
  | cons act acts ih =>
    cases act with
    | lookUp pattern =>
      simp only [List.cons_append, perform, ih, List.append_assoc]
    | notify notice =>
      simp only [List.cons_append, perform, ih]

theorem performs_pure (value : α) : (pure value : Checking α).Performs value [] :=
  fun _ => rfl

theorem performs_notify (notice : Notice) : (notify notice).Performs () [.notify notice] :=
  fun _ => rfl

theorem Performs.bind {check : Checking α} {next : α → Checking β} {value : α} {result : β}
    {acts acts' : List Act} (h : check.Performs value acts)
    (hnext : (next value).Performs result acts') :
    (check >>= next).Performs result (acts ++ acts') := by
  intro cache
  rw [run_bind, h, hnext, perform_append]

theorem Performs.map {check : Checking α} {value : α} {acts : List Act} (f : α → β)
    (h : check.Performs value acts) : (f <$> check).Performs (f value) acts := by
  intro cache
  rw [run_map, h]

/-- **To find the glob of a pattern is to ask the cache for it**, and to report it if it has
none. -/
theorem performs_glob? (pattern : String) :
    (glob? pattern).Performs (Glob.compile pattern).toOption [.lookUp pattern] := by
  intro cache
  have hglob := cache.map_glob_getOrCompile pattern
  rw [glob?, run_bind, run_compiled, ← hglob]
  simp only [perform]
  cases (cache.getOrCompile pattern).1 with
  | ok compiled => rfl
  | error e => rfl

/-! ### Expressions and lists -/

/-- **An expression has the effects of the patterns that it visits**, in their order. -/
theorem performs_evaluateM {leaf : String → Checking Bool} {holds : String → Bool}
    {acts : String → List Act} (h : ∀ text, (leaf text).Performs (holds text) (acts text))
    (e : Expr) :
    (e.evaluateM leaf).Performs (e.evaluate holds) ((e.visited holds).flatMap acts) := by
  induction e with
  | literal value => exact performs_pure value
  | pattern text =>
    have hvisited : ((Expr.pattern text).visited holds).flatMap acts = acts text :=
      List.flatMap_singleton acts text
    exact hvisited ▸ h text
  | and left right ihl ihr =>
    rw [Expr.evaluate_and, Expr.visited_and, List.flatMap_append]
    refine ihl.bind ?_
    cases left.evaluate holds with
    | true => exact ihr
    | false => exact performs_pure false
  | or left right ihl ihr =>
    rw [Expr.evaluate_or, Expr.visited_or, List.flatMap_append]
    refine ihl.bind ?_
    cases left.evaluate holds with
    | true => exact performs_pure true
    | false => exact ihr

variable {ι : Type} {ask : ι → Checking Bool} {holds : ι → Bool} {acts : ι → List Act}

/-- **Whether any item holds has the effects of the items up to the first that holds.** -/
theorem performs_anyM (h : ∀ i, (ask i).Performs (holds i) (acts i)) (is : List ι) :
    (is.anyM ask).Performs (is.any holds) ((is.take (is.findIdx holds + 1)).flatMap acts) := by
  -- Where no item holds, `findIdx` is the length of the list, and all items are taken.
  induction is with
  | nil => exact performs_pure false
  | cons i is ih =>
    rw [List.anyM_cons, List.any_cons, List.take_succ_cons, List.flatMap_cons, List.findIdx_cons]
    refine (h i).bind ?_
    cases holds i with
    | true => exact performs_pure true
    | false => exact ih

/-- **Whether all items hold has the effects of the items up to the first that does not.** -/
theorem performs_allM (h : ∀ i, (ask i).Performs (holds i) (acts i)) (is : List ι) :
    (is.allM ask).Performs (is.all holds)
      ((is.take (is.findIdx (fun i => !holds i) + 1)).flatMap acts) := by
  -- To ask whether all hold is to ask whether any does not, in the same order.
  rw [List.allM_eq_not_anyM_not, List.all_eq_not_any_not]
  exact (performs_anyM (fun i => (h i).map (!·)) is).map (!·)

end Checking

namespace Decision

open Checking

variable [RegexLibrary]

/-! ### The effects of a decision -/

/-- The effects of deciding a pattern: the cache is asked for the trimmed pattern, unless that is a
truth value or the universal wildcard. -/
def actsOfPattern (pattern : String) : List Act :=
  if Text.trim pattern ∈ ["true", "false", "*"] then [] else [.lookUp (Text.trim pattern)]

/-- The effects of deciding an expression: those of the patterns that it visits. -/
def actsOfExpr (granted : List String) (e : Expr) : List Act :=
  (e.visited (holds granted)).flatMap actsOfPattern

/-- The effects of deciding a text. A truth value has none, and a text that spells no expression is
reported. Any other text has those of its expression, and notice is given of the decision. -/
def actsOfText (settings : Settings) (granted : List String) (text : String) : List Act :=
  match literal? text with
  | some _ => []
  | none =>
    match Expr.ofText settings text with
    | .error e => [.notify (.report (.malformed text e))]
    | .ok e => actsOfExpr granted e ++ [.notify (.decided text (e.evaluate (holds granted)))]

theorem performs_matchesPattern (granted : List String) (pattern : String) :
    (matchesPattern granted pattern).Performs (holds granted pattern) (actsOfPattern pattern) := by
  rw [matchesPattern, holds, actsOfPattern]
  by_cases hmem : Text.trim pattern ∈ ["true", "false", "*"]
  · have hshortcut := mt (shortcut?_eq_none_iff (Text.trim_trim pattern)).mp (not_not_intro hmem)
    obtain ⟨shortcut, hsome⟩ := Option.ne_none_iff_exists'.mp hshortcut
    rw [if_pos hmem, hsome]
    cases shortcut with
    | literal value => exact performs_pure value
    | universal => exact performs_pure true
  · rw [if_neg hmem, (shortcut?_eq_none_iff (Text.trim_trim pattern)).mpr hmem]
    exact (performs_glob? _).bind (performs_pure _)

theorem performs_evaluate (granted : List String) (e : Expr) :
    (evaluate granted e).Performs (e.evaluate (holds granted)) (actsOfExpr granted e) :=
  performs_evaluateM (performs_matchesPattern granted) e

theorem performs_evaluateText (settings : Settings) (granted : List String) (text : String) :
    (evaluateText settings granted text).Performs (decides settings granted text)
      (actsOfText settings granted text) := by
  rw [evaluateText, decides, actsOfText]
  cases literal? text with
  | some value => exact performs_pure value
  | none =>
    cases Expr.ofText settings text with
    | error e => exact (performs_notify _).bind (performs_pure false)
    | ok e =>
      exact (performs_evaluate granted e).bind ((performs_notify _).bind (performs_pure _))

/-- **A decision has the effects of what it visits, and no others.** An expression asks the cache
for the patterns that short-circuit evaluation visits, in their order; those that need no glob are
left out, and those that have none are reported. A text that is a truth value has no effects, one
that spells no expression is reported and leaves the cache alone, and any other text has the
effects of its expression and gives notice of the decision. To read a text, or to tell whether it
can be read, has no effects. A list of texts has the effects of one text after the other, up to the
first that settles the answer. -/
theorem performs_exactly (settings : Settings) (granted : List String) :
    (∀ e, (evaluate granted e).Performs (e.evaluate (holds granted)) (actsOfExpr granted e)) ∧
      (∀ text, (evaluateText settings granted text).Performs (decides settings granted text)
        (actsOfText settings granted text)) ∧
      (∀ text, ((Request.parse text).check granted settings).Performs
        (.parsed (Expr.ofText settings text)) []) ∧
      (∀ text, ((Request.validate text).check granted settings).Performs
        (.truth (isValid settings text)) []) ∧
      (∀ texts, (hasAny settings granted texts).Performs (texts.any (decides settings granted))
        ((texts.take (texts.findIdx (decides settings granted) + 1)).flatMap
          (actsOfText settings granted))) ∧
      ∀ texts, (hasAll settings granted texts).Performs (texts.all (decides settings granted))
        ((texts.take (texts.findIdx (fun text => !decides settings granted text) + 1)).flatMap
          (actsOfText settings granted)) := by
  have htexts := performs_evaluateText settings granted
  refine ⟨performs_evaluate granted, htexts, fun text => ?_, fun text => ?_, fun texts => ?_,
    fun texts => ?_⟩
  · exact performs_pure _
  · exact performs_pure _
  · exact performs_anyM htexts texts
  · exact performs_allM htexts texts

end Decision

end AccessRules
