import AccessRules.Builtin.Regex
import AccessRules.Explanation
import AccessRules.Proofs.Canonical
import AccessRules.Proofs.Denial
import AccessRules.Proofs.Occurrences

/-!
# Explanations are true accounts

An explanation walks through the whole expression, the skipped parts included, and a decision does
not. All the same the two agree: on the decision, on which occurrences of the patterns were asked
about, and on the answers.

## Main definitions

* `Explanation.leavesOf`: the leaves of an expression, given the occurrences that are asked about

## Main statements

* `answers_walk_skipped`: a skipped part has all its leaves recorded as skipped
* `answers_walk`: the walk answers as the evaluation does, and records what the evaluation asks
* `map_pattern_filter_leavesOf`: the evaluated leaves are the patterns that evaluation visits
* `ofText_faithful`: an explanation is a faithful account of the decision

## Implementation notes

Nothing is said about the truth value that the walk has for a skipped part. It is not the value of
that part, and it does not have to be: at every operator the value of the active side decides.
-/

namespace AccessRules

namespace Explanation

open Checking
open Decision (holds matched answers_matchesPattern answers_matchingPermissions)

section

variable [RegexLibrary]

/-! ### The leaves of an expression -/

/-- What an explanation records of the occurrence `i` of a pattern. -/
def leafAt (granted : List String) (asked : List Nat) (i : Nat) (pattern : String) : Leaf :=
  if i ∈ asked then .visited pattern (holds granted pattern) (matched granted pattern)
  else .skipped pattern

/-- What an explanation records of patterns whose occurrences are numbered from `first`. -/
def leavesOf (granted : List String) (asked : List Nat) (first : Nat) (patterns : List String) :
    List Leaf :=
  patterns.mapIdx fun i => leafAt granted asked (first + i)

variable {granted : List String} {first : Nat}

theorem leavesOf_congr {asked asked' : List Nat} {patterns : List String}
    (h : ∀ i, first ≤ i → i < first + patterns.length → (i ∈ asked ↔ i ∈ asked')) :
    leavesOf granted asked first patterns = leavesOf granted asked' first patterns := by
  refine List.mapIdx_eq_mapIdx_iff.mpr fun i hi => ?_
  rw [leafAt, leafAt, if_congr (h (first + i) (by omega) (by omega)) rfl rfl]

/-- Where nothing is asked, every leaf is skipped. -/
theorem leavesOf_nil (patterns : List String) :
    leavesOf granted [] first patterns = patterns.map .skipped := by
  refine List.mapIdx_eq_iff.mpr fun i => ?_
  rw [List.getElem?_map]
  rfl

/-- The leaves of two adjoining lists of patterns, each with its own occurrences. -/
theorem leavesOf_append {asked asked' : List Nat} {ps qs : List String}
    (h : ∀ i ∈ asked, i < first + ps.length) (h' : ∀ i ∈ asked', first + ps.length ≤ i) :
    leavesOf granted (asked ++ asked') first (ps ++ qs) =
      leavesOf granted asked first ps ++ leavesOf granted asked' (first + ps.length) qs := by
  have hright : (qs.mapIdx fun i => leafAt granted (asked ++ asked') (first + (i + ps.length))) =
      leavesOf granted (asked ++ asked') (first + ps.length) qs := by
    refine List.mapIdx_eq_mapIdx_iff.mpr fun i _ => ?_
    rw [Nat.add_comm i, Nat.add_assoc]
  have hfront : leavesOf granted (asked ++ asked') first ps = leavesOf granted asked first ps := by
    refine leavesOf_congr fun i _ hi => ?_
    have hnot : i ∉ asked' := fun hmem => Nat.not_le.mpr hi (h' i hmem)
    simp [hnot]
  have hback : leavesOf granted (asked ++ asked') (first + ps.length) qs =
      leavesOf granted asked' (first + ps.length) qs := by
    refine leavesOf_congr fun i hi _ => ?_
    have hnot : i ∉ asked := fun hmem => Nat.not_le.mpr (h i hmem) hi
    simp [hnot]
  rw [← hfront, ← hback, ← hright, leavesOf, List.mapIdx_append]
  rfl

theorem leavesOf_asked_pattern (granted : List String) (holds : String → Bool) (first : Nat)
    (text : String) :
    leavesOf granted ((Expr.pattern text).asked holds first) first
        (Expr.pattern text).patterns =
      [.visited text (Decision.holds granted text) (matched granted text)] := by
  simp [leavesOf, leafAt, Expr.asked, Expr.patterns]

/-- The right side of an `and` is asked about if the left side holds. -/
theorem leavesOf_asked_and (granted : List String) (holds : String → Bool) (first : Nat)
    (left right : Expr) :
    leavesOf granted ((Expr.and left right).asked holds first) first
        (Expr.and left right).patterns =
      leavesOf granted (left.asked holds first) first left.patterns ++
        if left.evaluate holds then
          leavesOf granted (right.asked holds (first + left.patterns.length))
            (first + left.patterns.length) right.patterns
        else right.patterns.map .skipped := by
  have hleft : ∀ i ∈ left.asked holds first, i < first + left.patterns.length :=
    fun i hi => (Expr.mem_asked hi).2
  rw [Expr.asked, Expr.patterns]
  cases left.evaluate holds with
  | true => exact leavesOf_append hleft fun i hi => (Expr.mem_asked hi).1
  | false =>
    rw [if_neg Bool.false_ne_true, leavesOf_append hleft (by simp), leavesOf_nil]
    rfl

/-- The right side of an `or` is asked about if the left side does not hold. -/
theorem leavesOf_asked_or (granted : List String) (holds : String → Bool) (first : Nat)
    (left right : Expr) :
    leavesOf granted ((Expr.or left right).asked holds first) first
        (Expr.or left right).patterns =
      leavesOf granted (left.asked holds first) first left.patterns ++
        if left.evaluate holds then right.patterns.map .skipped
        else leavesOf granted (right.asked holds (first + left.patterns.length))
          (first + left.patterns.length) right.patterns := by
  have hleft : ∀ i ∈ left.asked holds first, i < first + left.patterns.length :=
    fun i hi => (Expr.mem_asked hi).2
  rw [Expr.asked, Expr.patterns]
  cases left.evaluate holds with
  | true =>
    rw [if_pos rfl, leavesOf_append hleft (by simp), leavesOf_nil]
    rfl
  | false => exact leavesOf_append hleft fun i hi => (Expr.mem_asked hi).1

/-- The leaves that count as evaluated are about the patterns that evaluation visits. -/
theorem map_pattern_filter_leavesOf (granted : List String) (holds : String → Bool) (first : Nat)
    (e : Expr) :
    ((leavesOf granted (e.asked holds first) first e.patterns).filter Leaf.evaluated).map
      Leaf.pattern = e.visited holds := by
  have hskipped (patterns : List String) :
      ((patterns.map Leaf.skipped).filter Leaf.evaluated).map Leaf.pattern = [] := by
    simp [List.filter_map, Function.comp_def, Leaf.evaluated]
  induction e generalizing first with
  | literal value => rfl
  | pattern text =>
    rw [leavesOf_asked_pattern]
    rfl
  | and left right ihl ihr =>
    rw [leavesOf_asked_and, Expr.visited_and, List.filter_append, List.map_append, ihl]
    cases left.evaluate holds with
    | true => exact congrArg (left.visited holds ++ ·) (ihr _)
    | false => exact congrArg (left.visited holds ++ ·) (hskipped _)
  | or left right ihl ihr =>
    rw [leavesOf_asked_or, Expr.visited_or, List.filter_append, List.map_append, ihl]
    cases left.evaluate holds with
    | true => exact congrArg (left.visited holds ++ ·) (hskipped _)
    | false => exact congrArg (left.visited holds ++ ·) (ihr _)

/-! ### The walk -/

/-- **A skipped part has all its leaves recorded as skipped**, whatever truth value the walk has
for it. -/
theorem answers_walk_skipped (granted : List String) (e : Expr) (leaves : List Leaf) :
    ∃ value, (walk granted false e leaves).Answers (value, leaves ++ e.patterns.map .skipped) := by
  induction e generalizing leaves with
  | literal value =>
    refine ⟨value, ?_⟩
    rw [Expr.patterns, List.map_nil, List.append_nil]
    exact answers_pure _
  | pattern text => exact ⟨false, answers_pure _⟩
  | and left right ihl ihr | or left right ihl ihr =>
    obtain ⟨l, hl⟩ := ihl leaves
    obtain ⟨r, hr⟩ := ihr (leaves ++ left.patterns.map .skipped)
    rw [Expr.patterns, List.map_append, ← List.append_assoc]
    exact ⟨_, hl.bind (hr.bind (answers_pure _))⟩

/-- **The walk answers as the evaluation does, and records what the evaluation asks.** -/
theorem answers_walk (granted : List String) (first : Nat) (e : Expr) (leaves : List Leaf) :
    (walk granted true e leaves).Answers (e.evaluate (holds granted),
      leaves ++ leavesOf granted (e.asked (holds granted) first) first e.patterns) := by
  induction e generalizing first leaves with
  | literal value =>
    rw [Expr.patterns, leavesOf, List.mapIdx_nil, List.append_nil]
    exact answers_pure _
  | pattern text =>
    rw [walk, Expr.evaluate_pattern, leavesOf_asked_pattern]
    refine (answers_matchesPattern granted text).bind ?_
    refine (answers_matchingPermissions granted text).bind ?_
    exact answers_pure _
  | and left right ihl ihr =>
    rw [Expr.evaluate_and, leavesOf_asked_and, ← List.append_assoc]
    refine (ihl first leaves).bind ?_
    cases left.evaluate (holds granted) with
    | true => exact (ihr _ _).bind (answers_pure _)
    | false =>
      obtain ⟨_, hskipped⟩ := answers_walk_skipped granted right _
      exact hskipped.bind (answers_pure _)
  | or left right ihl ihr =>
    rw [Expr.evaluate_or, leavesOf_asked_or, ← List.append_assoc]
    refine (ihl first leaves).bind ?_
    cases left.evaluate (holds granted) with
    | true =>
      obtain ⟨_, hskipped⟩ := answers_walk_skipped granted right _
      exact hskipped.bind (answers_pure _)
    | false => exact (ihr _ _).bind (answers_pure _)

/-! ### Explanations -/

/-- The explanation of a text, from whatever cache. -/
def account (settings : Settings) (granted : List String) (text : String) : Explanation :=
  match literal? text with
  | some value => ⟨text, .literal value⟩
  | none =>
    match Expr.ofText settings text with
    | .error e => ⟨text, .malformed e⟩
    | .ok e =>
      ⟨text, .evaluated e (e.evaluate (holds granted))
        (leavesOf granted (e.asked (holds granted) 0) 0 e.patterns)⟩

theorem answers_ofText (settings : Settings) (granted : List String) (text : String) :
    (ofText settings granted text).Answers (account settings granted text) := by
  rw [ofText, account]
  cases literal? text with
  | some value => exact answers_pure _
  | none =>
    cases Expr.ofText settings text with
    | error e => exact answers_pure _
    | ok e => exact (answers_walk granted 0 e []).bind (answers_pure _)

theorem granted_account (settings : Settings) (granted : List String) (text : String) :
    (account settings granted text).granted = Decision.decides settings granted text := by
  rw [account, Decision.decides]
  cases literal? text with
  | some value => rfl
  | none => cases Expr.ofText settings text <;> rfl

theorem leaves_account {settings : Settings} {text : String} {e : Expr}
    (hliteral : literal? text = none) (h : Expr.ofText settings text = .ok e)
    (granted : List String) :
    (account settings granted text).leaves =
      leavesOf granted (e.asked (holds granted) 0) 0 e.patterns := by
  rw [account, hliteral, h]
  rfl

/-- The leaf of an occurrence is about the pattern that stands there. -/
theorem map_pattern_leavesOf (asked : List Nat) (patterns : List String) :
    (leavesOf granted asked first patterns).map Leaf.pattern = patterns := by
  have hpattern : ∀ i p, (leafAt granted asked i p).pattern = p := by
    intro i p
    rw [leafAt]
    split <;> rfl
  refine List.ext_getElem? fun i => ?_
  rw [List.getElem?_map, leavesOf, List.getElem?_mapIdx, Option.map_map]
  simp [Function.comp_def, hpattern]

/-- What the leaf of an occurrence holds: the answers if the occurrence is asked about, and nothing
otherwise. -/
theorem holds_of_getElem?_leavesOf {asked : List Nat} {patterns : List String} {i : Nat}
    {leaf : Leaf} (h : (leavesOf granted asked 0 patterns)[i]? = some leaf) :
    (leaf.evaluated = true ↔ i ∈ asked) ∧
      (leaf.evaluated = true → leaf.result? = some (holds granted leaf.pattern) ∧
        leaf.matched = matched granted leaf.pattern) ∧
      (leaf.evaluated = false → leaf.result? = none ∧ leaf.matched = []) := by
  rw [leavesOf, List.getElem?_mapIdx] at h
  obtain ⟨p, -, rfl⟩ := Option.map_eq_some_iff.mp h
  rw [Nat.zero_add]
  by_cases hasked : i ∈ asked
  · rw [leafAt, if_pos hasked]
    simp [Leaf.evaluated, Leaf.result?, Leaf.matched, Leaf.pattern, hasked]
  · rw [leafAt, if_neg hasked]
    simp [Leaf.evaluated, Leaf.result?, Leaf.matched, hasked]

/-- **An explanation is a faithful account of the decision.** It grants exactly what the decision
grants. If the text spells an expression and is no truth value, the leaves are the pattern tokens
of the text in their order, which are the patterns of the expression, and those that count as
evaluated are the patterns that evaluation visits. A leaf counts as evaluated exactly if evaluation
asks about that occurrence; then it holds the answer about its pattern and the granted names that
the pattern matches, and otherwise it holds neither. -/
theorem ofText_faithful (settings : Settings) (granted : List String) (text : String)
    (cache : GlobCache) :
    let x := ((ofText settings granted text).run cache).value
    (∀ cache', x.granted = ((Decision.evaluateText settings granted text).run cache').value) ∧
      ∀ e, literal? text = none → Expr.ofText settings text = .ok e →
        x.leaves.map Leaf.pattern = (Expr.tokensOf text).filterMap Token.pattern? ∧
        x.leaves.map Leaf.pattern = e.patterns ∧
        (∀ cache', (x.leaves.filter Leaf.evaluated).map Leaf.pattern =
          e.visited fun p => ((Decision.matchesPattern granted p).run cache').value) ∧
        ∀ i leaf, x.leaves[i]? = some leaf → ∀ cache',
          (leaf.evaluated = true ↔
            i ∈ ((e.askedM (Decision.matchesPattern granted)).run cache').value) ∧
          (leaf.evaluated = true →
            leaf.result? =
              some ((Decision.matchesPattern granted leaf.pattern).run cache').value ∧
            leaf.matched =
              ((Decision.matchingPermissions granted leaf.pattern).run cache').value) ∧
          (leaf.evaluated = false → leaf.result? = none ∧ leaf.matched = []) := by
  intro x
  have hx : x = account settings granted text :=
    (answers_ofText settings granted text).value_eq cache
  refine ⟨fun cache' => ?_, fun e hliteral hread => ?_⟩
  · rw [hx, granted_account,
      (Decision.answers_evaluateText settings granted text).value_eq cache']
  · have hpatterns : x.leaves.map Leaf.pattern = e.patterns := by
      rw [hx, leaves_account hliteral hread, map_pattern_leavesOf]
    have htokens : e.patterns = (Expr.tokensOf text).filterMap Token.pattern? :=
      Expr.patterns_of_ofText hread
    refine ⟨hpatterns.trans htokens, hpatterns, fun cache' => ?_, fun i leaf hleaf cache' => ?_⟩
    · have hholds : (fun p => ((Decision.matchesPattern granted p).run cache').value) =
          holds granted := funext fun p => (answers_matchesPattern granted p).value_eq cache'
      rw [hx, leaves_account hliteral hread, hholds, map_pattern_filter_leavesOf]
    · rw [hx, leaves_account hliteral hread] at hleaf
      rw [(Expr.answers_askedM (answers_matchesPattern granted) e).value_eq cache',
        (answers_matchesPattern granted _).value_eq cache',
        (answers_matchingPermissions granted _).value_eq cache']
      exact holds_of_getElem?_leavesOf hleaf

end

section

open scoped Builtin

/-- In `(a && b) || a` the granted `b` is skipped, and `a` is asked about twice. -/
theorem ofText_faithful_repeated_pattern :
    let x := ((ofText .defaults ["b"] "(a && b) || a").run (.empty 256)).value
    x.granted = false ∧ x.leaves.map Leaf.pattern = ["a", "b", "a"] ∧
      ∀ i leaf, x.leaves[i]? = some leaf → (leaf.evaluated = true ↔ i ∈ [0, 2]) := by
  intro x
  let e : Expr := .or (.and (.pattern "a") (.pattern "b")) (.pattern "a")
  have hnames : e.WellNamed := by decide
  have hread : Expr.ofText .defaults "(a && b) || a" = .ok e :=
    Expr.ofText_text_of_wellNamed hnames .defaults
  have hliteral : literal? "(a && b) || a" = none := by decide +kernel
  have hdecides : Decision.decides .defaults ["b"] "(a && b) || a" = false := by
    rw [Decision.decides, hliteral, hread]
    decide +kernel
  have hasked : e.asked (holds ["b"]) 0 = [0, 2] := by decide +kernel
  obtain ⟨hgranted, haccount⟩ := ofText_faithful .defaults ["b"] "(a && b) || a" (.empty 256)
  obtain ⟨-, hpatterns, -, hleaves⟩ := haccount e hliteral hread
  refine ⟨?_, hpatterns, fun i leaf hleaf => ?_⟩
  · rw [hgranted (.empty 256),
      (Decision.answers_evaluateText .defaults ["b"] "(a && b) || a").value_eq, hdecides]
  · have hevaluated := (hleaves i leaf hleaf (.empty 256)).1
    rwa [(Expr.answers_askedM (answers_matchesPattern ["b"]) e).value_eq, hasked] at hevaluated

end

end Explanation

end AccessRules
