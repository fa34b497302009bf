import AccessRules.Builtin.Regex
import AccessRules.Proofs.Account
import AccessRules.Proofs.ShortCircuit

/-!
# The reason of a decision is sufficient

The reason in an explanation lists the patterns that were asked about and got the answer that the
decision has. Nothing else is needed to come to the decision: with these answers it is the same,
whatever is answered about all other patterns, those that were skipped and those that got the
other answer included. If the list is empty, the truth values in the expression decide it.

## Main statements

* `answered_leavesOf`: the patterns with an answer are the visited ones of which it is true
* `evaluate_eq_of_answered`: the patterns that are listed settle the decision
* `reason_suffices`: the reason of an explanation is sufficient

## Implementation notes

A pattern may stand in an expression several times, and be asked about in one place and skipped in
another. The list keeps a pattern as often as it was asked about. It is used as a set, because the
answer about a pattern is the same wherever it stands.
-/

namespace AccessRules.Explanation

open Decision (holds)

variable {settings : Settings} {granted : List String} {text : String} {e : Expr}

/-! ### The patterns that are listed -/

/-- A leaf has an answer if it counts as evaluated and the answer is true of its pattern. -/
theorem result?_of_mem_leavesOf [RegexLibrary] {asked : List Nat} {patterns : List String}
    {leaf : Leaf} (h : leaf ∈ leavesOf granted asked 0 patterns) (result : Bool) :
    (leaf.result? == some result) =
      (holds granted leaf.pattern == result && leaf.evaluated) := by
  obtain ⟨i, hi⟩ := List.mem_iff_getElem?.mp h
  obtain ⟨-, hvisited, hskipped⟩ := holds_of_getElem?_leavesOf hi
  cases hevaluated : leaf.evaluated with
  | true =>
    rw [(hvisited hevaluated).1, Bool.and_true, Option.some_beq_some]
  | false =>
    rw [(hskipped hevaluated).1, Bool.and_false, Option.none_beq_some]

/-- **The patterns with an answer are the visited ones of which it is true.** -/
theorem answered_leavesOf [RegexLibrary] (granted : List String) (e : Expr) (result : Bool) :
    answered result (leavesOf granted (e.asked (holds granted) 0) 0 e.patterns) =
      (e.visited (holds granted)).filter (holds granted · == result) := by
  rw [answered, ← map_pattern_filter_leavesOf granted (holds granted) 0 e, List.filter_map,
    List.filter_filter]
  exact congrArg _ (List.filter_congr fun leaf hleaf => result?_of_mem_leavesOf hleaf result)

/-- **The patterns that are listed settle the decision.** If they have the answer that the decision
has, the value of the expression is the decision. -/
theorem evaluate_eq_of_answered [RegexLibrary] {value : Bool}
    (he : e.evaluate (holds granted) = value) {holds' : String → Bool}
    (h : ∀ p ∈ answered value (leavesOf granted (e.asked (holds granted) 0) 0 e.patterns),
      holds' p = value) :
    e.evaluate holds' = value := by
  refine Expr.evaluate_eq_of_visited he fun p hp hvalue => h p ?_
  rw [answered_leavesOf, List.mem_filter]
  exact ⟨hp, beq_iff_eq.mpr hvalue⟩

/-! ### The reason in words -/

section Words

variable {leaves : List Leaf}

theorem reason_granted (h : answered true leaves ≠ []) :
    (⟨text, .evaluated e true leaves⟩ : Explanation).reason =
      "Expression holds; satisfied patterns: " ++ Text.quoteList (answered true leaves) := by
  simp only [reason]

theorem reason_granted_of_nil (h : answered true leaves = []) :
    (⟨text, .evaluated e true leaves⟩ : Explanation).reason =
      "Expression holds through its literal terms" := by
  simp only [reason, h]

theorem reason_denied (h : answered false leaves ≠ []) :
    (⟨text, .evaluated e false leaves⟩ : Explanation).reason =
      "Expression does not hold; unmatched patterns: " ++
        Text.quoteList (answered false leaves) := by
  simp only [reason]

theorem reason_denied_of_nil (h : answered false leaves = []) :
    (⟨text, .evaluated e false leaves⟩ : Explanation).reason =
      "Expression is false through its literal terms" := by
  simp only [reason, h]

end Words

/-! ### The reason is sufficient -/

/-- The explanation of a text that spells an expression. -/
theorem account_of_ok [RegexLibrary] (hliteral : literal? text = none)
    (hread : Expr.ofText settings text = .ok e) (granted : List String) :
    account settings granted text =
      ⟨text, .evaluated e (e.evaluate (holds granted))
        (leavesOf granted (e.asked (holds granted) 0) 0 e.patterns)⟩ := by
  rw [account, hliteral, hread]

/-- **The reason of an explanation is sufficient.** Let a text spell an expression and be no truth
value. If it is granted, the expression is true where just the patterns hold that were asked about
and found to hold. These are the patterns that the reason lists, and if there are none, the
expression is true whatever holds. If it is denied, the expression is false where all patterns hold
but those that were asked about and found not to hold. Again these are listed, and if there are
none, the expression is false whatever holds. -/
theorem reason_suffices [RegexLibrary] (hliteral : literal? text = none)
    (hread : Expr.ofText settings text = .ok e) (granted : List String) (cache : GlobCache) :
    let x := ((ofText settings granted text).run cache).value
    let satisfied := answered true x.leaves
    let unmatched := answered false x.leaves
    (x.granted = true →
      e.evaluate (fun p => decide (p ∈ satisfied)) = true ∧
        (satisfied ≠ [] →
          x.reason = "Expression holds; satisfied patterns: " ++ Text.quoteList satisfied) ∧
        (satisfied = [] → x.reason = "Expression holds through its literal terms" ∧
          ∀ holds', e.evaluate holds' = true)) ∧
      (x.granted = false →
        e.evaluate (fun p => decide (p ∉ unmatched)) = false ∧
          (unmatched ≠ [] →
            x.reason =
              "Expression does not hold; unmatched patterns: " ++ Text.quoteList unmatched) ∧
          (unmatched = [] → x.reason = "Expression is false through its literal terms" ∧
            ∀ holds', e.evaluate holds' = false)) := by
  intro x
  have hx : x = _ := ((answers_ofText settings granted text).value_eq cache).trans
    (account_of_ok hliteral hread granted)
  rw [hx]
  intro satisfied unmatched
  constructor
  · intro (he : e.evaluate (holds granted) = true)
    rw [he]
    refine ⟨evaluate_eq_of_answered he fun p hp => decide_eq_true hp, reason_granted,
      fun hnil => ⟨reason_granted_of_nil hnil, fun holds' => evaluate_eq_of_answered he ?_⟩⟩
    intro p hp
    exact absurd hp (List.eq_nil_iff_forall_not_mem.mp hnil p)
  · intro (he : e.evaluate (holds granted) = false)
    rw [he]
    refine ⟨evaluate_eq_of_answered he fun p hp => decide_eq_false (not_not_intro hp),
      reason_denied,
      fun hnil => ⟨reason_denied_of_nil hnil, fun holds' => evaluate_eq_of_answered he ?_⟩⟩
    intro p hp
    exact absurd hp (List.eq_nil_iff_forall_not_mem.mp hnil p)

section

open scoped Builtin

/-- `(a && b) || a` is granted with `a`, which is asked about twice. That `b` was asked about and
found not to hold does not matter. -/
theorem reason_suffices_repeated_pattern :
    let x := ((ofText .defaults ["a"] "(a && b) || a").run (.empty 256)).value
    x.granted = true ∧
      x.reason = "Expression holds; satisfied patterns: " ++ Text.quoteList ["a", "a"] ∧
      (Expr.or (.and (.pattern "a") (.pattern "b")) (.pattern "a")).evaluate
        (fun p => decide (p ∈ ["a", "a"])) = true := by
  intro x
  let e : Expr := .or (.and (.pattern "a") (.pattern "b")) (.pattern "a")
  have hnames : e.WellNamed := by decide
  have hread : Expr.ofText .defaults "(a && b) || a" = .ok e :=
    Expr.ofText_text_of_wellNamed hnames .defaults
  have hliteral : literal? "(a && b) || a" = none := by decide +kernel
  have hx : x = _ := ((answers_ofText .defaults ["a"] "(a && b) || a").value_eq _).trans
    (account_of_ok hliteral hread ["a"])
  have hgranted : x.granted = true := by
    have he : e.evaluate (holds ["a"]) = true := by decide +kernel
    rw [hx]
    exact he
  have hsatisfied : answered true x.leaves = ["a", "a"] := by
    have hvisited : (e.visited (holds ["a"])).filter (holds ["a"] · == true) = ["a", "a"] := by
      decide +kernel
    rw [hx]
    exact (answered_leavesOf ["a"] e true).trans hvisited
  obtain ⟨hevaluate, hreason, -⟩ :=
    (reason_suffices hliteral hread ["a"] (.empty 256)).1 hgranted
  have hlisted := hreason (by rw [hsatisfied]; exact List.cons_ne_nil _ _)
  rw [hsatisfied] at hevaluate hlisted
  exact ⟨hgranted, hlisted, hevaluate⟩

end

end AccessRules.Explanation
